import OpenGameAgent.Protocol.Json

/-!
# Durable transcript records

The record types of `packages/protocol/src/schema.ts` and
`packages/protocol/src/transcript.ts`, their validation, and the balance check on
a message history.

Canonical decimals (`sequence`, `turn`, revisions) are natural numbers: the code
admits only the decimal text without leading zeros, which names one number.  What
the schema says beyond the shape of a value, which the types below carry, is
`DurableTranscriptRecord.valid`.
-/

namespace OpenGameAgent

/-! ## Coordinates and revisions -/

/-- The stream a transcript, an event log or an Action belongs to. -/
structure StreamKey where
  sessionId : String
  actorId : String
  deriving DecidableEq, Repr

structure RunCoordinate where
  sessionId : String
  actorId : String
  runId : String
  turn : Nat
  deriving DecidableEq, Repr

/-- `TranscriptRevision`: `"empty"` or the sequence of the last record. -/
inductive TranscriptRevision where
  | empty
  | at (sequence : Nat)
  deriving DecidableEq, Repr

/-- The errors the transcript code throws, with the text it throws them with. -/
inductive TranscriptError where
  | type (message : String)
  | range (message : String)
  | recordIdentityConflict
  | writeConflict (expected actual : TranscriptRevision)
  | invalidRecord
  | jsonTooLarge
  | jsonTooDeep
  | invalidIdentifier
  | invalidStreamCoordinate
  | corruption
  deriving DecidableEq, Repr

def RunCoordinate.valid (c : RunCoordinate) : Bool :=
  isOpaqueIdentifier c.sessionId && isOpaqueIdentifier c.actorId && isOpaqueIdentifier c.runId

/-- `assertEventStreamCoordinate`. -/
def assertEventStreamCoordinate (stream : StreamKey) (c : RunCoordinate) :
    Except TranscriptError Unit :=
  if isOpaqueIdentifier stream.sessionId && isOpaqueIdentifier stream.actorId && c.valid &&
      stream.sessionId = c.sessionId && stream.actorId = c.actorId then .ok ()
  else .error .invalidStreamCoordinate

def RunCoordinate.toJson (c : RunCoordinate) : JsonValue :=
  .record [("sessionId", some (.text c.sessionId)), ("actorId", some (.text c.actorId)),
    ("runId", some (.text c.runId)), ("turn", some (.text (toString c.turn)))]

/-! ## Messages -/

inductive ImageMediaType where
  | png | jpeg | webp | gif
  deriving DecidableEq, Repr

def ImageMediaType.text : ImageMediaType → String
  | .png => "image/png"
  | .jpeg => "image/jpeg"
  | .webp => "image/webp"
  | .gif => "image/gif"

structure ImageReference where
  attachmentId : String
  mediaType : ImageMediaType
  bytes : Nat
  width : Nat
  height : Nat
  name : Option String

inductive MessageContent where
  | text (text : String)
  | imageReference (reference : ImageReference)

/-- The JSON object of a Tool call's arguments. -/
abbrev ToolArguments := List (List UInt16 × JsonValue)

structure ToolCallContent where
  id : String
  name : String
  arguments : ToolArguments
  toolNamespace : Option String

inductive AssistantContent where
  | text (text : String)
  | thinking (thinking : String)
  | toolCall (call : ToolCallContent)

inductive ReplayBlock where
  | text (textSignature : Option String)
  | thinking (thinkingSignature : Option String) (redacted : Option Bool)
  | toolCall (thoughtSignature : Option String)

/-- The stop reasons of a durable assistant message. -/
inductive StopReason where
  | stop | length | toolUse
  deriving DecidableEq, Repr

def StopReason.text : StopReason → String
  | .stop => "stop"
  | .length => "length"
  | .toolUse => "toolUse"

structure ProviderReplay where
  api : String
  provider : String
  model : String
  responseModel : Option String
  responseId : Option String
  providerThinkingLevel : Option String
  stopReason : StopReason
  blocks : List ReplayBlock

/-- A user message; `contentFormat` is `"text"` for a plain string. -/
inductive UserMessage where
  | text (text : String) (timestamp : Int)
  | parts (content : List MessageContent) (timestamp : Int)

structure AssistantMessage where
  content : List AssistantContent
  api : String
  provider : String
  model : String
  providerReplay : Option ProviderReplay
  stopReason : StopReason
  timestamp : Int

structure ToolResultMessage where
  toolCallId : String
  toolName : String
  content : List MessageContent
  addedToolNames : Option (List String)
  isError : Bool
  timestamp : Int

inductive DurableTranscriptMessage where
  | user (message : UserMessage)
  | assistant (message : AssistantMessage)
  | toolResult (message : ToolResultMessage)

/-! ## Records -/

inductive ToolOutcome where
  | completed | notStarted | outcomeUnknown
  deriving DecidableEq, Repr

inductive TurnStatus where
  | completed | interrupted
  deriving DecidableEq, Repr

/-- The terminal status of a run, in the transcript and in the event log. -/
inductive RunStatus where
  | completed | aborted | failed
  deriving DecidableEq, Repr

structure RunAdmissionAuthority where
  scope : String
  generation : Nat
  deriving DecidableEq, Repr

structure DeferredInput where
  inputId : String
  payload : JsonValue
  admissionAuthority : Option RunAdmissionAuthority

structure DeferredHandle where
  provider : String
  modelId : String
  api : String
  id : String
  expiresAt : Option Int
  pollAfterMs : Option Nat
  data : Option JsonValue

structure ToolStarted where
  assistantRecordId : String
  sourceIndex : Nat
  toolCallId : String
  toolName : String
  arguments : ToolArguments
  descriptorFingerprint : String
  catalogRevision : String
  policyRevision : String
  operationId : Option String

structure ToolCompleted where
  assistantRecordId : String
  startedRecordId : Option String
  sourceIndex : Nat
  outcome : ToolOutcome
  message : ToolResultMessage

structure ContextCheckpoint where
  sourceRevision : Nat
  sourceRecordId : String
  replacement : List DurableTranscriptMessage

structure DeferredOpened where
  operationId : String
  input : DeferredInput
  handle : DeferredHandle
  finalOutput : Option String
  reportedTokensBeforeDeferred : Option Nat

structure DeferredCompleted where
  operationId : String
  openedRecordId : String
  message : AssistantMessage

structure DeferredAbandoned where
  operationId : String
  openedRecordId : String

structure DeferredRunClosed where
  operationId : String
  inputId : String
  status : RunStatus

/-- The nine record types; `type` of the source is the constructor.  A
`message.completed` holds a user or an assistant message, never a Tool result. -/
inductive RecordData where
  | userCompleted (message : UserMessage)
  | assistantCompleted (message : AssistantMessage)
  | toolStarted (data : ToolStarted)
  | toolCompleted (data : ToolCompleted)
  | turnClosed (status : TurnStatus)
  | contextCheckpoint (data : ContextCheckpoint)
  | deferredOpened (data : DeferredOpened)
  | deferredCompleted (data : DeferredCompleted)
  | deferredAbandoned (data : DeferredAbandoned)
  | deferredRunClosed (data : DeferredRunClosed)

/-- A record before it has an identity: `TranscriptRecordDraft`. -/
structure TranscriptRecordDraft where
  coordinate : RunCoordinate
  data : RecordData

/-- A record holding data of one type, such as `DurableTranscriptDeferredOpenedRecord`. -/
structure RecordOf (α : Type) where
  recordId : String
  sequence : Nat
  coordinate : RunCoordinate
  data : α

abbrev DurableTranscriptRecord := RecordOf RecordData

/-- The same record with its data seen at a narrower type. -/
def RecordOf.narrow {α β : Type} (r : RecordOf α) (data : β) : RecordOf β :=
  ⟨r.recordId, r.sequence, r.coordinate, data⟩

/-! ## JSON form -/

def textsJson (texts : List String) : JsonValue := .array (texts.map .text)

def natJson (n : Nat) : JsonValue := .number (toString n)

def ImageReference.toJson (r : ImageReference) : JsonValue :=
  .record [("type", some (.text "image-reference")), ("attachmentId", some (.text r.attachmentId)),
    ("mediaType", some (.text r.mediaType.text)), ("bytes", some (natJson r.bytes)),
    ("width", some (natJson r.width)), ("height", some (natJson r.height)),
    ("name", r.name.map .text)]

def MessageContent.toJson : MessageContent → JsonValue
  | .text t => .record [("type", some (.text "text")), ("text", some (.text t))]
  | .imageReference r => r.toJson

def ToolCallContent.toJson (c : ToolCallContent) : JsonValue :=
  .record [("type", some (.text "toolCall")), ("id", some (.text c.id)),
    ("name", some (.text c.name)), ("arguments", some (.object c.arguments)),
    ("namespace", c.toolNamespace.map .text)]

def AssistantContent.toJson : AssistantContent → JsonValue
  | .text t => .record [("type", some (.text "text")), ("text", some (.text t))]
  | .thinking t => .record [("type", some (.text "thinking")), ("thinking", some (.text t))]
  | .toolCall c => c.toJson

def ReplayBlock.toJson : ReplayBlock → JsonValue
  | .text s => .record [("type", some (.text "text")), ("textSignature", s.map .text)]
  | .thinking s r =>
    .record [("type", some (.text "thinking")), ("thinkingSignature", s.map .text),
      ("redacted", r.map .bool)]
  | .toolCall s => .record [("type", some (.text "toolCall")), ("thoughtSignature", s.map .text)]

def ProviderReplay.toJson (r : ProviderReplay) : JsonValue :=
  .record [("format", some (.text "pi")), ("version", some (.text "1")),
    ("api", some (.text r.api)), ("provider", some (.text r.provider)),
    ("model", some (.text r.model)), ("responseModel", r.responseModel.map .text),
    ("responseId", r.responseId.map .text),
    ("providerThinkingLevel", r.providerThinkingLevel.map .text),
    ("stopReason", some (.text r.stopReason.text)),
    ("blocks", some (.array (r.blocks.map ReplayBlock.toJson)))]

def UserMessage.toJson : UserMessage → JsonValue
  | .text t ts =>
    .record [("role", some (.text "user")), ("contentFormat", some (.text "text")),
      ("content", some (.array [(MessageContent.text t).toJson])), ("timestamp", some (.int ts))]
  | .parts content ts =>
    .record [("role", some (.text "user")), ("contentFormat", some (.text "parts")),
      ("content", some (.array (content.map MessageContent.toJson))),
      ("timestamp", some (.int ts))]

def AssistantMessage.toJson (m : AssistantMessage) : JsonValue :=
  .record [("role", some (.text "assistant")),
    ("content", some (.array (m.content.map AssistantContent.toJson))),
    ("api", some (.text m.api)), ("provider", some (.text m.provider)),
    ("model", some (.text m.model)), ("providerReplay", m.providerReplay.map ProviderReplay.toJson),
    ("stopReason", some (.text m.stopReason.text)), ("timestamp", some (.int m.timestamp))]

def ToolResultMessage.toJson (m : ToolResultMessage) : JsonValue :=
  .record [("role", some (.text "toolResult")), ("toolCallId", some (.text m.toolCallId)),
    ("toolName", some (.text m.toolName)),
    ("content", some (.array (m.content.map MessageContent.toJson))),
    ("addedToolNames", m.addedToolNames.map textsJson), ("isError", some (.bool m.isError)),
    ("timestamp", some (.int m.timestamp))]

def DurableTranscriptMessage.toJson : DurableTranscriptMessage → JsonValue
  | .user m => m.toJson
  | .assistant m => m.toJson
  | .toolResult m => m.toJson

def ToolOutcome.text : ToolOutcome → String
  | .completed => "completed"
  | .notStarted => "not_started"
  | .outcomeUnknown => "outcome_unknown"

def TurnStatus.text : TurnStatus → String
  | .completed => "completed"
  | .interrupted => "interrupted"

def RunStatus.text : RunStatus → String
  | .completed => "completed"
  | .aborted => "aborted"
  | .failed => "failed"

def RunAdmissionAuthority.toJson (a : RunAdmissionAuthority) : JsonValue :=
  .record [("scope", some (.text a.scope)), ("generation", some (.text (toString a.generation)))]

def DeferredInput.toJson (i : DeferredInput) : JsonValue :=
  .record [("inputId", some (.text i.inputId)), ("payload", some i.payload),
    ("admissionAuthority", i.admissionAuthority.map RunAdmissionAuthority.toJson)]

def DeferredHandle.toJson (h : DeferredHandle) : JsonValue :=
  .record [("provider", some (.text h.provider)), ("modelId", some (.text h.modelId)),
    ("api", some (.text h.api)), ("id", some (.text h.id)), ("expiresAt", h.expiresAt.map .int),
    ("pollAfterMs", h.pollAfterMs.map natJson), ("data", h.data)]

/-- The `type` of a record and its own members. -/
def RecordData.members : RecordData → String × List (String × Option JsonValue)
  | .userCompleted m => ("message.completed", [("message", some m.toJson)])
  | .assistantCompleted m => ("message.completed", [("message", some m.toJson)])
  | .toolStarted d =>
    ("tool.started", [("assistantRecordId", some (.text d.assistantRecordId)),
      ("sourceIndex", some (natJson d.sourceIndex)), ("toolCallId", some (.text d.toolCallId)),
      ("toolName", some (.text d.toolName)), ("arguments", some (.object d.arguments)),
      ("descriptorFingerprint", some (.text d.descriptorFingerprint)),
      ("catalogRevision", some (.text d.catalogRevision)),
      ("policyRevision", some (.text d.policyRevision)),
      ("operationId", d.operationId.map .text)])
  | .toolCompleted d =>
    ("tool.completed", [("assistantRecordId", some (.text d.assistantRecordId)),
      ("startedRecordId", d.startedRecordId.map .text),
      ("sourceIndex", some (natJson d.sourceIndex)), ("outcome", some (.text d.outcome.text)),
      ("message", some d.message.toJson)])
  | .turnClosed status => ("turn.closed", [("status", some (.text status.text))])
  | .contextCheckpoint d =>
    ("context.checkpoint", [("sourceRevision", some (.text (toString d.sourceRevision))),
      ("sourceRecordId", some (.text d.sourceRecordId)),
      ("replacement", some (.array (d.replacement.map DurableTranscriptMessage.toJson)))])
  | .deferredOpened d =>
    ("deferred.opened", [("operationId", some (.text d.operationId)),
      ("input", some d.input.toJson), ("handle", some d.handle.toJson),
      ("finalOutput", d.finalOutput.map .text),
      ("reportedTokensBeforeDeferred", d.reportedTokensBeforeDeferred.map natJson)])
  | .deferredCompleted d =>
    ("deferred.completed", [("operationId", some (.text d.operationId)),
      ("openedRecordId", some (.text d.openedRecordId)), ("message", some d.message.toJson)])
  | .deferredAbandoned d =>
    ("deferred.abandoned", [("operationId", some (.text d.operationId)),
      ("openedRecordId", some (.text d.openedRecordId)), ("reason", some (.text "cancelled"))])
  | .deferredRunClosed d =>
    ("deferred.run.closed", [("operationId", some (.text d.operationId)),
      ("inputId", some (.text d.inputId)), ("status", some (.text d.status.text))])

/-- `TRANSCRIPT_SCHEMA_VERSION`. -/
def transcriptSchemaVersion : String := "6"

def DurableTranscriptRecord.toJson (r : DurableTranscriptRecord) : JsonValue :=
  .record (("schemaVersion", some (.text transcriptSchemaVersion)) ::
    ("type", some (.text r.data.members.1)) :: ("coordinate", some r.coordinate.toJson) ::
    ("recordId", some (.text r.recordId)) :: ("sequence", some (.text (toString r.sequence))) ::
    r.data.members.2)

/-! ## Validation -/

/-- `DurableTranscriptTimestampSchema`. -/
def isTimestampInteger (n : Int) : Bool := -maxSafeInteger ≤ n && n ≤ maxSafeInteger

/-- The pattern `^img_[0-9a-f]{64}$`. -/
def isAttachmentId (s : String) : Bool :=
  match s.toList with
  | 'i' :: 'm' :: 'g' :: '_' :: digits => areSha256Digits digits
  | _ => false

def ImageReference.valid (r : ImageReference) : Bool :=
  isAttachmentId r.attachmentId && 0 < r.bytes && r.bytes ≤ maxSafeInteger &&
    0 < r.width && r.width ≤ maxSafeInteger && 0 < r.height && r.height ≤ maxSafeInteger && r.name.all isOpaqueIdentifier

def MessageContent.valid : MessageContent → Bool
  | .text _ => true
  | .imageReference r => r.valid

def ToolCallContent.valid (c : ToolCallContent) : Bool :=
  isOpaqueIdentifier c.id && isOpaqueIdentifier c.name && c.toolNamespace.all isOpaqueIdentifier

def AssistantContent.valid : AssistantContent → Bool
  | .toolCall c => c.valid
  | _ => true

def UserMessage.valid : UserMessage → Bool
  | .text _ ts => isTimestampInteger ts
  | .parts content ts => content.all MessageContent.valid && isTimestampInteger ts

def AssistantMessage.valid (m : AssistantMessage) : Bool :=
  m.content.all AssistantContent.valid && isTimestampInteger m.timestamp

def ToolResultMessage.valid (m : ToolResultMessage) : Bool :=
  isOpaqueIdentifier m.toolCallId && isOpaqueIdentifier m.toolName &&
    m.content.all MessageContent.valid && m.addedToolNames.all (·.all isOpaqueIdentifier) &&
    isTimestampInteger m.timestamp

def DurableTranscriptMessage.valid : DurableTranscriptMessage → Bool
  | .user m => m.valid
  | .assistant m => m.valid
  | .toolResult m => m.valid

def DeferredInput.valid (i : DeferredInput) : Bool :=
  isOpaqueIdentifier i.inputId && i.admissionAuthority.all fun a => isOpaqueIdentifier a.scope

def DeferredHandle.valid (h : DeferredHandle) : Bool :=
  h.expiresAt.all isTimestampInteger && h.pollAfterMs.all (· ≤ maxSafeInteger)

/-- The pattern `\S` of a final output: some character that is not blank. -/
def hasVisibleText (s : String) : Bool :=
  s.toList.any fun c => !([0x20, 0xa0, 0x1680, 0x2028, 0x2029, 0x202f, 0x205f, 0x3000,
    0xfeff].contains c.toNat || (0x09 ≤ c.toNat && c.toNat ≤ 0x0d) ||
    (0x2000 ≤ c.toNat && c.toNat ≤ 0x200a))

def RecordData.valid : RecordData → Bool
  | .userCompleted m => m.valid
  | .assistantCompleted m => m.valid
  | .toolStarted d =>
    isOpaqueIdentifier d.assistantRecordId && d.sourceIndex ≤ maxSafeInteger &&
      isOpaqueIdentifier d.toolCallId && isOpaqueIdentifier d.toolName &&
      isSha256 d.descriptorFingerprint && isOpaqueIdentifier d.catalogRevision &&
      isOpaqueIdentifier d.policyRevision && d.operationId.all isOpaqueIdentifier
  | .toolCompleted d =>
    isOpaqueIdentifier d.assistantRecordId && d.startedRecordId.all isOpaqueIdentifier &&
      d.sourceIndex ≤ maxSafeInteger && d.message.valid
  | .turnClosed _ => true
  | .contextCheckpoint d =>
    isOpaqueIdentifier d.sourceRecordId && !d.replacement.isEmpty &&
      d.replacement.all DurableTranscriptMessage.valid
  | .deferredOpened d =>
    isOpaqueIdentifier d.operationId && d.input.valid && d.handle.valid &&
      d.finalOutput.all hasVisibleText &&
      d.reportedTokensBeforeDeferred.all (· ≤ maxSafeInteger)
  | .deferredCompleted d =>
    isOpaqueIdentifier d.operationId && isOpaqueIdentifier d.openedRecordId && d.message.valid
  | .deferredAbandoned d =>
    isOpaqueIdentifier d.operationId && isOpaqueIdentifier d.openedRecordId
  | .deferredRunClosed d => isOpaqueIdentifier d.operationId && isOpaqueIdentifier d.inputId

/-- What `DurableTranscriptRecordSchema` asks beyond the shape of the record. -/
def DurableTranscriptRecord.valid (r : DurableTranscriptRecord) : Bool :=
  r.coordinate.valid && isOpaqueIdentifier r.recordId && r.data.valid

/-! ## Balanced histories -/

/-- The Tool calls of an assistant message, as `safeRetainedBoundaries` tracks them. -/
def pendingCalls (m : AssistantMessage) : List (String × String) :=
  m.content.filterMap fun
    | .toolCall c => some (c.id, c.name)
    | _ => none

/-- The loop of `safeRetainedBoundaries`: `pending` are the calls still unanswered
and `index` counts the messages already read. -/
def retainedBoundaries (pending : List (String × String)) (index : Nat) :
    List DurableTranscriptMessage → Except TranscriptError (List Nat)
  | [] =>
    if pending.isEmpty then .ok []
    else .error (.type "The transcript history contains an unbalanced Tool call.")
  | message :: rest =>
    match pending, message with
    | expected :: later, .toolResult m =>
      if (m.toolCallId, m.toolName) = expected then do
        let boundaries ← retainedBoundaries later (index + 1) rest
        return if later.isEmpty then (index + 1) :: boundaries else boundaries
      else .error (.type "The transcript history contains an unbalanced Tool call.")
    | _ :: _, _ => .error (.type "The transcript history contains an unbalanced Tool call.")
    | [], .toolResult _ =>
      .error (.type "The transcript history contains an orphan Tool result.")
    | [], .assistant m => do
      let boundaries ← retainedBoundaries (pendingCalls m) (index + 1) rest
      return if (pendingCalls m).isEmpty then (index + 1) :: boundaries else boundaries
    | [], .user _ => do
      let boundaries ← retainedBoundaries [] (index + 1) rest
      return (index + 1) :: boundaries

def safeRetainedBoundaries (messages : List DurableTranscriptMessage) :
    Except TranscriptError (List Nat) :=
  retainedBoundaries [] 0 messages

/-- `assertExactTranscriptCheckpointBoundary`: the checkpoint follows a completed
`turn.closed` at once, names it, and its replacement is balanced. -/
def assertExactTranscriptCheckpointBoundary (checkpoint : DurableTranscriptRecord)
    (data : ContextCheckpoint) (source : DurableTranscriptRecord) :
    Except TranscriptError Unit :=
  match source.data with
  | .turnClosed .completed =>
    if checkpoint.sequence = source.sequence + 1 ∧ data.sourceRevision = source.sequence ∧
        data.sourceRecordId = source.recordId ∧ checkpoint.coordinate = source.coordinate then do
      let _ ← safeRetainedBoundaries data.replacement
    else .error (.type "The transcript checkpoint source boundary is invalid.")
  | _ => .error (.type "The transcript checkpoint source boundary is invalid.")

end OpenGameAgent
