import OpenGameAgent.Library.Decimal
import OpenGameAgent.Library.Run
import OpenGameAgent.Protocol.Json
import OpenGameAgent.Protocol.Timestamp

/-!
# The provider provenance log

`packages/devtools/src/model-context-provenance.ts`: the records of model requests and
responses, their validation, the recorder and the file store.

A number is `-0` or the text `JSON.stringify` writes for it; the file knows no `-0`.  Decimal
texts that are canonical are natural numbers.  Inputs are of the declared types, so the checks
of keys have nothing to refuse.

* `validateStoredState` — what a recorder accepts of a store.
* `prepare` — the checks of `recordRequest` and `recordResponse` and the record they append.
* `FileStore.load`, `FileStore.append` — the file store.
-/

namespace OpenGameAgent

namespace Provenance

/-! ## Values -/

/-- A finite number. -/
inductive Amount where
  | negativeZero
  /-- Any other one, given by the text `JSON.stringify` writes for it. -/
  | number (text : String)
  deriving DecidableEq

/-- `JSON.stringify`, which writes `-0` as `0`. -/
def Amount.text : Amount → String
  | .negativeZero => "0"
  | .number text => text

/-- The number `JSON.parse` makes of its text. -/
def Amount.reread (amount : Amount) : Amount := .number amount.text

/-- `nonnegative`; `-0 >= 0` holds. -/
def nonnegative (amount : Amount) : Bool := amount.text.toList.head? ≠ some '-'

/-- A safe integer from `least` on; those are written with digits alone. -/
def isSafeIntegerFrom (least : Nat) (amount : Amount) : Bool :=
  areDecimalDigits amount.text.toList && least ≤ digitsValue amount.text.toList &&
    digitsValue amount.text.toList ≤ maxSafeInteger

def nonnegativeInteger (amount : Amount) : Bool := isSafeIntegerFrom 0 amount

def positiveInteger (amount : Amount) : Bool := isSafeIntegerFrom 1 amount

/-- `isGameProvenanceAlias`. -/
def isGameProvenanceAlias (s : String) : Bool :=
  match s.toList with
  | 'p' :: 'v' :: '_' :: digits => areSha256Digits digits
  | _ => false

structure Coordinate where
  scopeId : String
  streamId : String
  runId : String
  turn : Nat
  deriving DecidableEq

structure ModelRoute where
  provider : String
  api : String
  model : String
  deriving DecidableEq

structure ModelAttempt where
  index : Nat
  targetRoute : ModelRoute
  deriving DecidableEq

structure TranscriptReference where
  revision : Nat
  checkpointRevision : Option Nat
  deriving DecidableEq

structure LineageReference where
  sourceId : String
  referenceId : String
  revision : String
  contentFingerprint : String
  deriving DecidableEq

structure Lineage where
  baseInstructions : LineageReference
  contextTransformer : Option LineageReference
  exactToolRepeatPolicy : Option LineageReference
  deriving DecidableEq

/-- `policyContext`, which has one member. -/
structure ExactToolRepeat where
  eventId : String
  eventRevision : Nat
  toolName : String
  consecutiveCount : Nat
  contentFingerprint : String
  deriving DecidableEq

structure ToolSnapshot where
  revision : String
  policyRevision : String
  deriving DecidableEq

structure SourceReference where
  referenceId : String
  revision : String
  contentFingerprint : String
  deriving DecidableEq

structure ContextSource where
  kind : String
  sourceId : String
  references : List SourceReference
  deriving DecidableEq

structure ToolReference where
  name : String
  sourceId : String
  fingerprint : String
  deriving DecidableEq

structure ImageContext where
  sourceId : String
  referenceId : String
  revision : String
  deriving DecidableEq

structure ImageReference where
  messageIndex : Amount
  contentIndex : Amount
  mediaType : String
  bytes : Amount
  sha256 : String
  context : Option ImageContext
  deriving DecidableEq

/-- `GameModelRequestProvenance`. -/
structure ModelRequest where
  operation : String
  coordinate : Coordinate
  startedAt : String
  requestedRoute : ModelRoute
  attempt : ModelAttempt
  modelContextFingerprint : String
  transcript : TranscriptReference
  lineage : Lineage
  policyContext : Option ExactToolRepeat
  toolSnapshot : Option ToolSnapshot
  sources : List ContextSource
  tools : List ToolReference
  images : List ImageReference
  deriving DecidableEq

structure UsdCost where
  input : Amount
  output : Amount
  cacheRead : Amount
  cacheWrite : Amount
  total : Amount
  deriving DecidableEq

inductive Cost where
  | unpriced
  | unknown (source : String)
  | free (usd : UsdCost)
  | calculated (source : String) (usd : UsdCost)
  deriving DecidableEq

inductive Usage where
  | unreported
  | reported (input output cacheRead cacheWrite : Amount) (cacheWrite1h reasoning : Option Amount)
      (totalTokens : Amount)
  deriving DecidableEq

/-- `GameModelResponseProvenance`. -/
structure ModelResponse where
  completedAt : String
  servedModel : String
  stopReason : String
  outcome : String
  errorKind : String
  cost : Cost
  usage : Usage
  deriving DecidableEq

/-- `ModelContextProvenanceRecord`. -/
inductive Record where
  | request (recordId : String) (sequence : Nat) (request : ModelRequest)
  | response (requestRecordId : String) (sequence : Nat) (response : ModelResponse)
  deriving DecidableEq

def Record.sequence : Record → Nat
  | .request _ sequence _ | .response _ sequence _ => sequence

/-- `ModelContextProvenanceStoredState`; a revision that is missing is `empty`. -/
structure StoredState where
  revision : Option Nat
  records : List Record
  deriving DecidableEq

def emptyState : StoredState := ⟨none, []⟩

/-! ## What the file makes of them -/

def ImageReference.reread (image : ImageReference) : ImageReference :=
  { image with
    messageIndex := image.messageIndex.reread
    contentIndex := image.contentIndex.reread
    bytes := image.bytes.reread }

def ModelRequest.reread (request : ModelRequest) : ModelRequest :=
  { request with images := request.images.map ImageReference.reread }

def UsdCost.reread (usd : UsdCost) : UsdCost :=
  ⟨usd.input.reread, usd.output.reread, usd.cacheRead.reread, usd.cacheWrite.reread,
    usd.total.reread⟩

def Cost.reread : Cost → Cost
  | .unpriced => .unpriced
  | .unknown source => .unknown source
  | .free usd => .free usd.reread
  | .calculated source usd => .calculated source usd.reread

def Usage.reread : Usage → Usage
  | .unreported => .unreported
  | .reported input output cacheRead cacheWrite cacheWrite1h reasoning totalTokens =>
    .reported input.reread output.reread cacheRead.reread cacheWrite.reread
      (cacheWrite1h.map Amount.reread) (reasoning.map Amount.reread) totalTokens.reread

def ModelResponse.reread (response : ModelResponse) : ModelResponse :=
  { response with cost := response.cost.reread, usage := response.usage.reread }

/-- `JSON.parse(JSON.stringify(record))`. -/
def Record.reread : Record → Record
  | .request recordId sequence body => .request recordId sequence body.reread
  | .response requestRecordId sequence body => .response requestRecordId sequence body.reread

def StoredState.reread (state : StoredState) : StoredState :=
  { state with records := state.records.map Record.reread }

/-! ## Their JSON -/

def decimalJson (n : Nat) : JsonValue := .text (toString n)

def Amount.toJson (amount : Amount) : JsonValue := .number amount.text

def ModelRoute.toJson (route : ModelRoute) : JsonValue :=
  .record [("provider", some (.text route.provider)), ("api", some (.text route.api)),
    ("model", some (.text route.model))]

def LineageReference.toJson (reference : LineageReference) : JsonValue :=
  .record [("sourceId", some (.text reference.sourceId)),
    ("referenceId", some (.text reference.referenceId)),
    ("revision", some (.text reference.revision)),
    ("contentFingerprint", some (.text reference.contentFingerprint))]

def ExactToolRepeat.toJson (exact : ExactToolRepeat) : JsonValue :=
  .record [("exactToolRepeat", some (.record [("eventId", some (.text exact.eventId)),
    ("eventRevision", some (decimalJson exact.eventRevision)),
    ("toolName", some (.text exact.toolName)),
    ("consecutiveCount", some (decimalJson exact.consecutiveCount)),
    ("contentFingerprint", some (.text exact.contentFingerprint))]))]

def ContextSource.toJson (source : ContextSource) : JsonValue :=
  .record [("kind", some (.text source.kind)), ("sourceId", some (.text source.sourceId)),
    ("references", some (.array (source.references.map fun reference =>
      .record [("referenceId", some (.text reference.referenceId)),
        ("revision", some (.text reference.revision)),
        ("contentFingerprint", some (.text reference.contentFingerprint))])))]

def ToolReference.toJson (tool : ToolReference) : JsonValue :=
  .record [("name", some (.text tool.name)), ("sourceId", some (.text tool.sourceId)),
    ("fingerprint", some (.text tool.fingerprint))]

def ImageReference.toJson (image : ImageReference) : JsonValue :=
  .record [("messageIndex", some image.messageIndex.toJson),
    ("contentIndex", some image.contentIndex.toJson), ("mediaType", some (.text image.mediaType)),
    ("bytes", some image.bytes.toJson), ("sha256", some (.text image.sha256)),
    ("context", image.context.map fun context =>
      .record [("sourceId", some (.text context.sourceId)),
        ("referenceId", some (.text context.referenceId)),
        ("revision", some (.text context.revision))])]

def ModelRequest.members (request : ModelRequest) : List (String × Option JsonValue) :=
  [("operation", some (.text request.operation)),
    ("coordinate", some (.record [("scopeId", some (.text request.coordinate.scopeId)),
      ("streamId", some (.text request.coordinate.streamId)),
      ("runId", some (.text request.coordinate.runId)),
      ("turn", some (decimalJson request.coordinate.turn))])),
    ("startedAt", some (.text request.startedAt)),
    ("requestedRoute", some request.requestedRoute.toJson),
    ("attempt", some (.record [("index", some (decimalJson request.attempt.index)),
      ("targetRoute", some request.attempt.targetRoute.toJson)])),
    ("modelContextFingerprint", some (.text request.modelContextFingerprint)),
    ("transcript", some (.record [("revision", some (decimalJson request.transcript.revision)),
      ("checkpointRevision", request.transcript.checkpointRevision.map decimalJson)])),
    ("lineage", some (.record [("baseInstructions", some request.lineage.baseInstructions.toJson),
      ("contextTransformer", request.lineage.contextTransformer.map LineageReference.toJson),
      ("exactToolRepeatPolicy",
        request.lineage.exactToolRepeatPolicy.map LineageReference.toJson)])),
    ("policyContext", request.policyContext.map ExactToolRepeat.toJson),
    ("toolSnapshot", request.toolSnapshot.map fun snapshot =>
      .record [("revision", some (.text snapshot.revision)),
        ("policyRevision", some (.text snapshot.policyRevision))]),
    ("sources", some (.array (request.sources.map ContextSource.toJson))),
    ("tools", some (.array (request.tools.map ToolReference.toJson))),
    ("images", some (.array (request.images.map ImageReference.toJson)))]

def UsdCost.toJson (usd : UsdCost) : JsonValue :=
  .record [("input", some usd.input.toJson), ("output", some usd.output.toJson),
    ("cacheRead", some usd.cacheRead.toJson), ("cacheWrite", some usd.cacheWrite.toJson),
    ("total", some usd.total.toJson)]

def Cost.toJson : Cost → JsonValue
  | .unpriced => .record [("kind", some (.text "unpriced"))]
  | .unknown source =>
    .record [("kind", some (.text "unknown")), ("source", some (.text source))]
  | .free usd => .record [("kind", some (.text "free")), ("usd", some usd.toJson)]
  | .calculated source usd => .record [("kind", some (.text "calculated")),
      ("source", some (.text source)), ("usd", some usd.toJson)]

def Usage.toJson : Usage → JsonValue
  | .unreported => .record [("kind", some (.text "unreported"))]
  | .reported input output cacheRead cacheWrite cacheWrite1h reasoning totalTokens =>
    .record [("kind", some (.text "reported")), ("input", some input.toJson),
      ("output", some output.toJson), ("cacheRead", some cacheRead.toJson),
      ("cacheWrite", some cacheWrite.toJson), ("cacheWrite1h", cacheWrite1h.map Amount.toJson),
      ("reasoning", reasoning.map Amount.toJson), ("totalTokens", some totalTokens.toJson)]

def ModelResponse.members (response : ModelResponse) : List (String × Option JsonValue) :=
  [("completedAt", some (.text response.completedAt)),
    ("servedModel", some (.text response.servedModel)),
    ("stopReason", some (.text response.stopReason)), ("outcome", some (.text response.outcome)),
    ("errorKind", some (.text response.errorKind)), ("cost", some response.cost.toJson),
    ("usage", some response.usage.toJson)]

def Record.toJson : Record → JsonValue
  | .request recordId sequence body =>
    .record ([("schemaVersion", some (.text "4")), ("type", some (.text "provider.request")),
      ("recordId", some (.text recordId))] ++ body.members ++
      [("sequence", some (decimalJson sequence))])
  | .response requestRecordId sequence body =>
    .record ([("schemaVersion", some (.text "4")), ("type", some (.text "provider.response")),
      ("requestRecordId", some (.text requestRecordId))] ++ body.members ++
      [("sequence", some (decimalJson sequence))])

def StoredState.toJson (state : StoredState) : JsonValue :=
  .record [("schemaVersion", some (.text "4")),
    ("revision", some (match state.revision with
      | none => .text "empty"
      | some revision => decimalJson revision)),
    ("records", some (.array (state.records.map Record.toJson)))]

/-- `byteLength`: the bytes of `JSON.stringify`, of which the order of the keys is no part. -/
def Record.bytes (record : Record) : Nat := canonicalBytes record.toJson

def StoredState.bytes (state : StoredState) : Nat := canonicalBytes state.toJson

/-! ## Validation -/

inductive ProvenanceError where
  | validation | capacity | writeConflict
  /-- The store fails. -/
  | store
  deriving DecidableEq

def invalidUnless (condition : Bool) : Except ProvenanceError Unit := demand condition .validation

def validRoute (route : ModelRoute) : Bool :=
  isGameProvenanceAlias route.provider && isGameProvenanceAlias route.api &&
    isGameProvenanceAlias route.model

def validLineageReference (reference : LineageReference) : Bool :=
  isGameProvenanceAlias reference.sourceId && isGameProvenanceAlias reference.referenceId &&
    isGameProvenanceAlias reference.revision && isSha256 reference.contentFingerprint

def validPolicyContext (exact : ExactToolRepeat) : Bool :=
  isGameProvenanceAlias exact.eventId && isGameProvenanceAlias exact.toolName &&
    1 ≤ exact.consecutiveCount && exact.consecutiveCount ≤ maxSafeInteger &&
    isSha256 exact.contentFingerprint

def sourceKinds : List String :=
  ["context", "memory", "skill", "artifact", "knowledge", "mcp", "extension", "observation"]

def validSource (source : ContextSource) : Bool :=
  source.kind ∈ sourceKinds && isGameProvenanceAlias source.sourceId &&
    source.references.all fun reference =>
      isGameProvenanceAlias reference.referenceId && isGameProvenanceAlias reference.revision &&
        isSha256 reference.contentFingerprint

def validTool (tool : ToolReference) : Bool :=
  isGameProvenanceAlias tool.name && isGameProvenanceAlias tool.sourceId &&
    isSha256 tool.fingerprint

def validImage (image : ImageReference) : Bool :=
  nonnegativeInteger image.messageIndex && nonnegativeInteger image.contentIndex &&
    image.mediaType ∈ ["image/png", "image/jpeg", "image/webp", "image/gif"] &&
    positiveInteger image.bytes && isSha256 image.sha256 &&
    image.context.all fun context =>
      isGameProvenanceAlias context.sourceId && isGameProvenanceAlias context.referenceId &&
        isGameProvenanceAlias context.revision

/-- `assertRequest`. -/
def validRequest (request : ModelRequest) : Bool :=
  request.operation = "inference" && isCanonicalTimestamp request.startedAt &&
    isSha256 request.modelContextFingerprint &&
    isGameProvenanceAlias request.coordinate.scopeId &&
    isGameProvenanceAlias request.coordinate.streamId &&
    isGameProvenanceAlias request.coordinate.runId && validRoute request.requestedRoute &&
    request.attempt.index ≠ 0 && validRoute request.attempt.targetRoute &&
    (request.transcript.checkpointRevision.all fun checkpoint =>
      checkpoint ≤ request.transcript.revision) &&
    validLineageReference request.lineage.baseInstructions &&
    request.lineage.contextTransformer.all validLineageReference &&
    request.lineage.exactToolRepeatPolicy.all validLineageReference &&
    (request.policyContext.all fun exact =>
      validPolicyContext exact && request.lineage.exactToolRepeatPolicy.isSome) &&
    (request.toolSnapshot.all fun snapshot =>
      isGameProvenanceAlias snapshot.revision && isGameProvenanceAlias snapshot.policyRevision) &&
    request.sources.all validSource && request.tools.all validTool &&
    request.images.all validImage

def UsdCost.amounts (usd : UsdCost) : List Amount :=
  [usd.input, usd.output, usd.cacheRead, usd.cacheWrite, usd.total]

def isPriceSource (source : String) : Bool := source = "pi-catalog" || source = "host-rate-card"

/-- `assertCost`; `-0 !== 0` does not hold. -/
def validCost : Cost → Bool
  | .unpriced => true
  | .unknown source => isPriceSource source
  | .free usd => usd.amounts.all fun amount => amount.text = "0"
  | .calculated source usd => isPriceSource source && usd.amounts.all nonnegative

/-- `assertUsage`. -/
def validUsage : Usage → Bool
  | .unreported => true
  | .reported input output cacheRead cacheWrite cacheWrite1h reasoning totalTokens =>
    [input, output, cacheRead, cacheWrite, totalTokens].all nonnegative &&
      cacheWrite1h.all nonnegative && reasoning.all nonnegative

/-- The outcome and the kind of error that go with a stop reason. -/
def expectedOutcome (stopReason : String) : String × String :=
  if stopReason = "error" then ("failed", "provider")
  else if stopReason = "aborted" then ("cancelled", "cancelled")
  else if stopReason = "deferred" then ("deferred", "none")
  else ("completed", "none")

/-- The usage and the cost of a response agree with its stop reason. -/
def usageConsistent (response : ModelResponse) : Bool :=
  match response.usage, response.cost with
  | .unreported, .calculated _ _ => false
  | .unreported, _ => response.stopReason = "error" || response.stopReason = "aborted"
  | .reported .., .unknown _ => false
  | .reported .., _ => true

/-- `assertResponse`. -/
def validResponse (response : ModelResponse) : Bool :=
  isCanonicalTimestamp response.completedAt && isGameProvenanceAlias response.servedModel &&
    response.stopReason ∈ ["stop", "length", "toolUse", "error", "aborted", "deferred"] &&
    validCost response.cost && validUsage response.usage && usageConsistent response &&
    (response.outcome, response.errorKind) = expectedOutcome response.stopReason

/-- `assertRecord`. -/
def validRecord : Record → Bool
  | .request recordId _ body => isGameProvenanceAlias recordId && validRequest body
  | .response requestRecordId _ body =>
    isGameProvenanceAlias requestRecordId && validResponse body

/-- The request of a record, with its identity. -/
def Record.request? : Record → Option (String × ModelRequest)
  | .request recordId _ body => some (recordId, body)
  | .response .. => none

def Record.isRequest (recordId : String) (record : Record) : Bool :=
  record.request?.any fun request => request.1 = recordId

/-- A response to the request of this identity. -/
def Record.isResponse (recordId : String) : Record → Bool
  | .request .. => false
  | .response requestRecordId _ _ => requestRecordId = recordId

/-- The requests of a coordinate, the oldest first. -/
def attemptsAt (coordinate : Coordinate) (records : List Record) : List (String × ModelRequest) :=
  (records.filterMap Record.request?).filter fun request => request.2.coordinate = coordinate

/-- `assertNextAttempt`. -/
def isNextAttempt (records : List Record) (request : ModelRequest) : Bool :=
  match (attemptsAt request.coordinate records).getLast? with
  | none => request.attempt.index = 1
  | some (recordId, previous) =>
    request.attempt.index = previous.attempt.index + 1 &&
      request.modelContextFingerprint = previous.modelContextFingerprint &&
      request.requestedRoute = previous.requestedRoute && records.any (Record.isResponse recordId)

/-- The request of a response is there, and has no response yet. -/
def isOpenRequest (records : List Record) (recordId : String) : Bool :=
  records.any (Record.isRequest recordId) && !records.any (Record.isResponse recordId)

/-- `ModelContextProvenanceLimits`, of which `validateLimits` requires safe integers. -/
structure ProvenanceLimits where
  maxRecords : Nat
  maxRecordBytes : Nat
  maxStoreBytes : Nat
  maxRecords_safe : maxRecords ≤ maxSafeInteger

/-- One turn of the loop of `validateStoredState`, behind the records before. -/
def validateRecord (limits : ProvenanceLimits) (records : List Record) (raw : Record) :
    Except ProvenanceError Unit := do
  invalidUnless (validRecord raw)
  invalidUnless (raw.sequence = records.length + 1)
  demand (raw.bytes ≤ limits.maxRecordBytes) .capacity
  match raw with
  | .request recordId _ body =>
    invalidUnless (isNextAttempt records body)
    invalidUnless (!records.any (Record.isRequest recordId))
  | .response requestRecordId _ _ => invalidUnless (isOpenRequest records requestRecordId)

/-- The loop of `validateStoredState`. -/
def validateRecords (limits : ProvenanceLimits) :
    List Record → List Record → Except ProvenanceError Unit
  | _, [] => return ()
  | records, raw :: rest => do
    validateRecord limits records raw
    validateRecords limits (records ++ [raw]) rest

/-- `validateStoredState`. -/
def validateStoredState (limits : ProvenanceLimits) (value : StoredState) :
    Except ProvenanceError StoredState := do
  demand (value.records.length ≤ limits.maxRecords && value.bytes ≤ limits.maxStoreBytes) .capacity
  validateRecords limits [] value.records
  invalidUnless (value.revision = value.records.getLast?.map Record.sequence)
  return value

/-! ## The recorder -/

/-- What a call records, the identity of a request being the one `newId` gives. -/
inductive Draft where
  | request (recordId : String) (request : ModelRequest)
  | response (requestRecordId : String) (response : ModelResponse)
  deriving DecidableEq

/-- The record of a draft. -/
def Draft.record (draft : Draft) (sequence : Nat) : Record :=
  match draft with
  | .request recordId body => .request recordId sequence body
  | .response requestRecordId body => .response requestRecordId sequence body

/-- The checks of `recordRequest` and `recordResponse` against the log. -/
def checkDraft (state : StoredState) : Draft → Except ProvenanceError Unit
  | .request recordId body => do
    invalidUnless (isNextAttempt state.records body)
    invalidUnless (!state.records.any (Record.isRequest recordId))
  | .response requestRecordId _ => invalidUnless (isOpenRequest state.records requestRecordId)

/-- `appendUnlocked` up to the call of the store: the record, and the log it expects. -/
def prepare (limits : ProvenanceLimits) (state : StoredState) (draft : Draft) :
    Except ProvenanceError (Record × StoredState) := do
  checkDraft state draft
  demand (state.records.length < limits.maxRecords) .capacity
  let sequence := state.revision.getD 0 + 1
  let record := draft.record sequence
  invalidUnless (validRecord record)
  demand (record.bytes ≤ limits.maxRecordBytes) .capacity
  let candidate : StoredState := ⟨some sequence, state.records ++ [record]⟩
  demand (candidate.bytes ≤ limits.maxStoreBytes) .capacity
  return (record, candidate)

/-! ## The file store -/

namespace FileStore

variable (maxDocumentBytes : Nat)

/-- `load`; a file that is missing is empty. -/
def load (maxBytes : Nat) (file : Option StoredState) : Except ProvenanceError StoredState :=
  let maximum := min maxBytes maxDocumentBytes
  match file with
  | none => .ok emptyState
  | some document => do
    demand (document.bytes ≤ maximum) .capacity
    validateStoredState ⟨maxSafeInteger, maximum, maximum, le_rfl⟩ document

/-- `append`: what it returns, which has not gone through the file.  The file then holds what
`JSON.parse` makes of it. -/
def append (file : Option StoredState) (expectedRevision : Option Nat) (record : Record) :
    Except ProvenanceError StoredState := do
  let current ← load maxDocumentBytes maxDocumentBytes file
  demand (current.revision = expectedRevision) .writeConflict
  invalidUnless (validRecord record)
  let next : StoredState := ⟨some record.sequence, current.records ++ [record]⟩
  demand (next.bytes ≤ maxDocumentBytes) .capacity
  return next

end FileStore

end Provenance

end OpenGameAgent
