import OpenGameAgent.Agent.TranscriptScan
import Mathlib.Tactic.Common

/-!
# Capturing and materialising transcript messages

`captureTranscriptMessage` turns a Pi message into the durable message a transcript
record holds, and `materializeMessages` turns the durable messages of a restored
transcript back into Pi messages (`packages/agent/src/durable-transcript.ts`).

A Pi assistant message keeps each signature on its own block.  A durable assistant
message keeps the blocks in `content` and the signatures in `providerReplay.blocks`, a
second list read by the same index, and it has a `providerReplay` only where there is
something to keep in it.

* `captureBlocks_eq` — the loop of `captureAssistantContent` in closed form
* `captureAssistant_aligned` — the two lists it writes are aligned
* `materializeAssistantContent_capture` — reading them by index gives the blocks back
* `capture_replays` — capture and materialisation of one message
* `materializeMessages_capture` — the same of a whole transcript, in order
-/

namespace OpenGameAgent

/-! ## Pi messages

The types of the Pi library as the functions below read and write them. -/

/-- A text block; providers may sign it. -/
structure PiText where
  text : String
  textSignature : Option String
  deriving DecidableEq, Repr

/-- A text block that carries nothing but its text. -/
def PiText.bare (text : String) : PiText := ⟨text, none⟩

structure PiThinking where
  thinking : String
  thinkingSignature : Option String
  redacted : Option Bool
  deriving DecidableEq, Repr

structure PiToolCall where
  id : String
  name : String
  arguments : ToolArguments
  thoughtSignature : Option String
  toolNamespace : Option String

structure PiImage where
  data : String
  mimeType : String
  deriving DecidableEq, Repr

/-- A part of a user message or of a Tool result. -/
inductive PiPart where
  | text (part : PiText)
  | image (part : PiImage)
  deriving DecidableEq, Repr

inductive PiBlock where
  | text (block : PiText)
  | thinking (block : PiThinking)
  | toolCall (block : PiToolCall)

inductive PiStopReason where
  | stop | length | toolUse | error | aborted | deferred
  deriving DecidableEq, Repr

structure PiCost where
  input : Rat
  output : Rat
  cacheRead : Rat
  cacheWrite : Rat
  total : Rat

structure PiUsage where
  input : Rat
  output : Rat
  cacheRead : Rat
  cacheWrite : Rat
  totalTokens : Rat
  cost : PiCost

def PiUsage.zero : PiUsage := ⟨0, 0, 0, 0, 0, ⟨0, 0, 0, 0, 0⟩⟩

/-- The content of a user message: a plain string or a list of parts. -/
inductive PiUserContent where
  | string (text : String)
  | parts (parts : List PiPart)
  deriving DecidableEq, Repr

structure PiUserMessage where
  content : PiUserContent
  timestamp : Int
  deriving DecidableEq, Repr

structure PiAssistantMessage where
  content : List PiBlock
  api : String
  provider : String
  model : String
  responseModel : Option String
  responseId : Option String
  providerThinkingLevel : Option String
  usage : PiUsage
  stopReason : PiStopReason
  timestamp : Int

structure PiToolResultMessage where
  toolCallId : String
  toolName : String
  content : List PiPart
  addedToolNames : Option (List String)
  isError : Bool
  timestamp : Int
  deriving DecidableEq, Repr

inductive PiMessage where
  | user (message : PiUserMessage)
  | assistant (message : PiAssistantMessage)
  | toolResult (message : PiToolResultMessage)

/-! ## Capture -/

/-- The errors of capture and materialisation, with their texts. -/
inductive CaptureError where
  | unsupportedDeferred
  | unsupportedMedia (message : String)
  | type (message : String)
  deriving DecidableEq, Repr

/-- `TranscriptUnsupportedMediaError` without a text of its own. -/
def mediaRequired : CaptureError :=
  .unsupportedMedia "The durable transcript requires a media Adapter for image content."

def mediaNotAligned : CaptureError :=
  .unsupportedMedia "Durable transcript media content is not aligned."

/-- Base64 and SHA-256, as the transcript uses them on image data. -/
structure ImageCodec where
  decodeCanonicalBase64 : String → Option (List UInt8)
  sha256 : List UInt8 → String

def decodePiImage (codec : ImageCodec) (image : PiImage) :
    Except CaptureError (PiImage × List UInt8) :=
  if image.data.isEmpty ∨ image.mimeType.isEmpty then
    .error (.unsupportedMedia "The transcript media Adapter returned invalid image content.")
  else
    match codec.decodeCanonicalBase64 image.data with
    | none =>
      .error (.unsupportedMedia
        "The transcript media Adapter returned invalid base64 image content.")
    | some bytes => .ok (image, bytes)

def validateImageReference (codec : ImageCodec) (image : PiImage) (reference : ImageReference)
    (referenceValidated : Bool) : Except CaptureError PiImage := do
  if !referenceValidated && !reference.valid then
    .error (.unsupportedMedia "The transcript media reference is invalid.")
  let (content, bytes) ← decodePiImage codec image
  if content.mimeType ≠ reference.mediaType.text ∨ bytes.length ≠ reference.bytes ∨
      "img_" ++ codec.sha256 bytes ≠ reference.attachmentId then
    .error (.unsupportedMedia
      "The transcript media content does not match its durable reference.")
  return content

/-- A part captured without durable content. -/
def captureBarePart : PiPart → Except CaptureError MessageContent
  | .text part => .ok (.text part.text)
  | .image _ => .error mediaRequired

/-- A part captured with the durable content at its index. -/
def captureAlignedPart (codec : ImageCodec) : PiPart × MessageContent →
    Except CaptureError MessageContent
  | (.text part, .text text) => if text = part.text then .ok (.text text) else .error mediaNotAligned
  | (.image part, .imageReference reference) => do
    let _ ← validateImageReference codec part reference false
    return .imageReference reference
  | _ => .error mediaNotAligned

def captureDurableMediaContent (codec : ImageCodec) (piContent : List PiPart)
    (durableContent : Option (List MessageContent)) :
    Except CaptureError (List MessageContent) :=
  match durableContent with
  | none => piContent.mapM captureBarePart
  | some durable =>
    if durable.length ≠ piContent.length then .error mediaNotAligned
    else (piContent.zip durable).mapM (captureAlignedPart codec)

def captureUserMessage (codec : ImageCodec) (message : PiUserMessage)
    (durableContent : Option (List MessageContent)) : Except CaptureError UserMessage := do
  match message.content with
  | .string text =>
    let content ← captureDurableMediaContent codec [.text (.bare text)] durableContent
    match content with
    | [.text text] => return .text text message.timestamp
    | _ => .error (.type "A string user message requires one transcript text part.")
  | .parts parts =>
    let content ← captureDurableMediaContent codec parts durableContent
    return .parts content message.timestamp

def captureToolResultMessage (codec : ImageCodec) (message : PiToolResultMessage)
    (durableContent : Option (List MessageContent)) : Except CaptureError ToolResultMessage := do
  let content ← captureDurableMediaContent codec message.content durableContent
  return {
    toolCallId := message.toolCallId
    toolName := message.toolName
    content := content
    addedToolNames := message.addedToolNames.filter (0 < ·.length)
    isError := message.isError
    timestamp := message.timestamp }

/-- The variables of the loop of `captureAssistantContent`. -/
structure BlockCapture where
  captured : List AssistantContent
  replayBlocks : List ReplayBlock
  hasReplay : Bool

/-- The body of the loop of `captureAssistantContent`. -/
def BlockCapture.push (state : BlockCapture) : PiBlock → BlockCapture
  | .thinking block =>
    { captured := state.captured ++ [.thinking block.thinking]
      replayBlocks := state.replayBlocks ++ [.thinking block.thinkingSignature block.redacted]
      hasReplay :=
        if block.thinkingSignature.isSome || block.redacted.isSome then true
        else state.hasReplay }
  | .text block =>
    { captured := state.captured ++ [.text block.text]
      replayBlocks := state.replayBlocks ++ [.text block.textSignature]
      hasReplay := if block.textSignature.isSome then true else state.hasReplay }
  | .toolCall block =>
    { captured := state.captured ++
        [.toolCall ⟨block.id, block.name, block.arguments, block.toolNamespace⟩]
      replayBlocks := state.replayBlocks ++ [.toolCall block.thoughtSignature]
      hasReplay := if block.thoughtSignature.isSome then true else state.hasReplay }

/-- `captureAssistantContent`, for a message that ended with `stopReason`. -/
def captureAssistantContent (message : PiAssistantMessage) (stopReason : StopReason) :
    List AssistantContent × Option ProviderReplay :=
  let hasReplay := message.responseModel.isSome || message.responseId.isSome ||
    message.providerThinkingLevel.isSome
  let state := message.content.foldl BlockCapture.push ⟨[], [], hasReplay⟩
  (state.captured,
    if state.hasReplay then
      some {
        api := message.api
        provider := message.provider
        model := message.model
        responseModel := message.responseModel
        responseId := message.responseId
        providerThinkingLevel := message.providerThinkingLevel
        stopReason := stopReason
        blocks := state.replayBlocks }
    else none)

/-- The stop reasons a durable message can have. -/
def PiStopReason.durable : PiStopReason → Option StopReason
  | .stop => some .stop
  | .length => some .length
  | .toolUse => some .toolUse
  | _ => none

def StopReason.pi : StopReason → PiStopReason
  | .stop => .stop
  | .length => .length
  | .toolUse => .toolUse

/-- The durable message of an assistant message that ended with `stopReason`. -/
def captureAssistant (message : PiAssistantMessage) (stopReason : StopReason) :
    AssistantMessage :=
  let captured := captureAssistantContent message stopReason
  { content := captured.1
    api := message.api
    provider := message.provider
    model := message.model
    providerReplay := captured.2
    stopReason := stopReason
    timestamp := message.timestamp }

def captureTranscriptMessage (codec : ImageCodec) (message : PiMessage)
    (durableContent : Option (List MessageContent)) :
    Except CaptureError (Option DurableTranscriptMessage) :=
  match message with
  | .user message => do
    let captured ← captureUserMessage codec message durableContent
    return some (.user captured)
  | .assistant message =>
    if message.stopReason = .deferred then .error .unsupportedDeferred
    else
      match message.stopReason.durable with
      | none => .ok none
      | some stopReason => .ok (some (.assistant (captureAssistant message stopReason)))
  | .toolResult message => do
    let captured ← captureToolResultMessage codec message durableContent
    return some (.toolResult captured)

/-! ## Materialisation -/

/-- Reading the next image of the batch: the state is `imageIndex`. -/
abbrev Materialization := StateT Nat (Except CaptureError)

def materializePart (takeImage : ImageReference → Materialization PiImage) :
    MessageContent → Materialization PiPart
  | .text text => pure (.text (.bare text))
  | .imageReference reference => do
    let image ← takeImage reference
    return .image image

def materializeBlock (replayBlock : Option ReplayBlock) : AssistantContent → PiBlock
  | .thinking thinking =>
    match replayBlock with
    | some (.thinking thinkingSignature redacted) =>
      .thinking ⟨thinking, thinkingSignature, redacted⟩
    | _ => .thinking ⟨thinking, none, none⟩
  | .text text =>
    match replayBlock with
    | some (.text textSignature) => .text ⟨text, textSignature⟩
    | _ => .text ⟨text, none⟩
  | .toolCall call =>
    match replayBlock with
    | some (.toolCall thoughtSignature) =>
      .toolCall ⟨call.id, call.name, call.arguments, thoughtSignature, call.toolNamespace⟩
    | _ => .toolCall ⟨call.id, call.name, call.arguments, none, call.toolNamespace⟩

def materializeAssistantContent (message : AssistantMessage) : List PiBlock :=
  message.content.mapIdx fun index part =>
    materializeBlock (message.providerReplay.bind fun replay => replay.blocks[index]?) part

/-- `materializeMessage`.  A text user message holds one text part by its type. -/
def materializeMessage (message : DurableTranscriptMessage)
    (takeImage : ImageReference → Materialization PiImage) : Materialization PiMessage :=
  match message with
  | .user (.text text timestamp) => pure (.user ⟨.string text, timestamp⟩)
  | .user (.parts content timestamp) => do
    let content ← content.mapM (materializePart takeImage)
    if content.isEmpty then throw (.type "A durable user message is empty.")
    return .user ⟨.parts content, timestamp⟩
  | .toolResult message => do
    let content ← message.content.mapM (materializePart takeImage)
    return .toolResult {
      toolCallId := message.toolCallId
      toolName := message.toolName
      content := content
      addedToolNames := message.addedToolNames
      isError := message.isError
      timestamp := message.timestamp }
  | .assistant message =>
    pure (.assistant {
      content := materializeAssistantContent message
      api := message.api
      provider := message.provider
      model := message.model
      responseModel := message.providerReplay.bind (·.responseModel)
      responseId := message.providerReplay.bind (·.responseId)
      providerThinkingLevel := message.providerReplay.bind (·.providerThinkingLevel)
      usage := .zero
      stopReason := message.stopReason.pi
      timestamp := message.timestamp })

/-- What the media Adapter is asked for one image of a message. -/
structure TranscriptMediaReadRequest where
  stream : StreamKey
  reference : ImageReference
  /-- The Tool call and name of a Tool result; `none` for a user message. -/
  toolCall : Option (String × String)

def imageReferences (content : List MessageContent) : List ImageReference :=
  content.filterMap fun
    | .text _ => none
    | .imageReference reference => some reference

def mediaReadRequests (stream : StreamKey) : DurableTranscriptMessage →
    List TranscriptMediaReadRequest
  | .assistant _ => []
  | .user (.text _ _) => []
  | .user (.parts content _) => (imageReferences content).map fun r => ⟨stream, r, none⟩
  | .toolResult message =>
    (imageReferences message.content).map fun r =>
      ⟨stream, r, some (message.toolCallId, message.toolName)⟩

def misalignedBatch : CaptureError :=
  .unsupportedMedia "The transcript media Adapter returned a misaligned read batch."

def takeNextImage (codec : ImageCodec) (images : List PiImage)
    (requests : List TranscriptMediaReadRequest) (reference : ImageReference) :
    Materialization PiImage := do
  let imageIndex ← get
  set (imageIndex + 1)
  match images[imageIndex]?, requests[imageIndex]? with
  | some image, some request =>
    if request.reference.attachmentId ≠ reference.attachmentId then throw misalignedBatch
    else validateImageReference codec image reference true
  | _, _ => throw misalignedBatch

/-- `materializeMessages`; `media` is the `read` of the media Adapter, where there is one. -/
def materializeMessages (codec : ImageCodec) (stream : StreamKey)
    (messages : List DurableTranscriptMessage)
    (media : Option (List TranscriptMediaReadRequest → Except CaptureError (List PiImage))) :
    Except CaptureError (List PiMessage) := do
  let requests := messages.flatMap (mediaReadRequests stream)
  let images ← if requests.isEmpty then pure [] else
    match media with
    | none => throw mediaRequired
    | some read => do
      let images ← read requests
      if images.length ≠ requests.length then throw misalignedBatch
      pure images
  let (materialized, _) ←
    (messages.mapM (materializeMessage · (takeNextImage codec images requests))).run 0
  return materialized

/-! ## The two lists of an assistant message -/

/-- The block as the durable content keeps it. -/
def PiBlock.captured : PiBlock → AssistantContent
  | .text block => .text block.text
  | .thinking block => .thinking block.thinking
  | .toolCall block => .toolCall ⟨block.id, block.name, block.arguments, block.toolNamespace⟩

/-- What the provider replay keeps of the block. -/
def PiBlock.replay : PiBlock → ReplayBlock
  | .text block => .text block.textSignature
  | .thinking block => .thinking block.thinkingSignature block.redacted
  | .toolCall block => .toolCall block.thoughtSignature

/-- The block has something only the provider replay can keep. -/
def PiBlock.signed : PiBlock → Bool
  | .text block => block.textSignature.isSome
  | .thinking block => block.thinkingSignature.isSome || block.redacted.isSome
  | .toolCall block => block.thoughtSignature.isSome

/-- The message has something only a provider replay can keep. -/
def PiAssistantMessage.hasReplay (message : PiAssistantMessage) : Bool :=
  message.responseModel.isSome || message.responseId.isSome ||
    message.providerThinkingLevel.isSome || message.content.any PiBlock.signed

theorem BlockCapture.push_eq (state : BlockCapture) (block : PiBlock) :
    state.push block = ⟨state.captured ++ [block.captured], state.replayBlocks ++ [block.replay],
      state.hasReplay || block.signed⟩ := by
  cases block <;> simp [push, PiBlock.captured, PiBlock.replay, PiBlock.signed, Bool.or_comm]

theorem captureBlocks_eq (blocks : List PiBlock) (state : BlockCapture) :
    blocks.foldl BlockCapture.push state = ⟨state.captured ++ blocks.map PiBlock.captured,
      state.replayBlocks ++ blocks.map PiBlock.replay,
      state.hasReplay || blocks.any PiBlock.signed⟩ := by
  induction blocks generalizing state with
  | nil => simp
  | cons block rest ih =>
    rw [List.foldl_cons, ih, BlockCapture.push_eq]
    simp [Bool.or_assoc]

theorem captureAssistantContent_content (message : PiAssistantMessage) (stopReason : StopReason) :
    (captureAssistantContent message stopReason).1 = message.content.map PiBlock.captured := by
  simp [captureAssistantContent, captureBlocks_eq]

theorem captureAssistantContent_replay (message : PiAssistantMessage) (stopReason : StopReason) :
    (captureAssistantContent message stopReason).2 = if message.hasReplay then
      some ⟨message.api, message.provider, message.model, message.responseModel,
        message.responseId, message.providerThinkingLevel, stopReason,
        message.content.map PiBlock.replay⟩ else none := by
  simp [captureAssistantContent, captureBlocks_eq, PiAssistantMessage.hasReplay]

@[simp] theorem matchesContent_captured (block : PiBlock) :
    block.replay.matchesContent block.captured = true := by
  cases block <;> rfl

theorem captureAssistant_eq (message : PiAssistantMessage) (stopReason : StopReason) :
    captureAssistant message stopReason =
      ⟨message.content.map PiBlock.captured, message.api, message.provider, message.model,
        if message.hasReplay then
          some ⟨message.api, message.provider, message.model, message.responseModel,
            message.responseId, message.providerThinkingLevel, stopReason,
            message.content.map PiBlock.replay⟩ else none,
        stopReason, message.timestamp⟩ := by
  simp [captureAssistant, captureAssistantContent_content, captureAssistantContent_replay]

theorem captureAssistant_aligned (message : PiAssistantMessage) (stopReason : StopReason) :
    assertAssistantReplayAlignment (captureAssistant message stopReason) = .ok () := by
  rw [captureAssistant_eq]
  by_cases h : message.hasReplay = true
  · have hblocks : ((message.content.map PiBlock.replay).zip
        (message.content.map PiBlock.captured)).all (fun p => p.1.matchesContent p.2) = true := by
      simp [List.zip_map', List.all_map, Function.comp_def]
    simp [assertAssistantReplayAlignment, h, hblocks]
  · simp [assertAssistantReplayAlignment, h]

/-! ## Reading the two lists by one index -/

theorem materializeBlock_replay (block : PiBlock) :
    materializeBlock (some block.replay) block.captured = block := by
  cases block <;> rfl

theorem materializeBlock_unsigned {block : PiBlock} (h : block.signed = false) :
    materializeBlock none block.captured = block := by
  cases block with
  | text block =>
    obtain ⟨text, signature⟩ := block
    cases signature with
    | none => rfl
    | some signature => cases h
  | thinking block =>
    obtain ⟨thinking, signature, redacted⟩ := block
    cases signature with
    | none =>
      cases redacted with
      | none => rfl
      | some redacted => cases h
    | some signature => cases h
  | toolCall block =>
    obtain ⟨id, name, arguments, signature, toolNamespace⟩ := block
    cases signature with
    | none => rfl
    | some signature => cases h

theorem PiAssistantMessage.of_not_hasReplay {message : PiAssistantMessage}
    (h : ¬ message.hasReplay = true) :
    message.responseModel = none ∧ message.responseId = none ∧
      message.providerThinkingLevel = none ∧
      ∀ block ∈ message.content, block.signed = false := by
  simpa [PiAssistantMessage.hasReplay, and_assoc] using h

theorem materializeAssistantContent_capture (message : PiAssistantMessage)
    (stopReason : StopReason) :
    materializeAssistantContent (captureAssistant message stopReason) = message.content := by
  unfold materializeAssistantContent
  rw [captureAssistant_eq]
  apply List.ext_getElem
  · simp
  · intro index hindex hindex'
    by_cases h : message.hasReplay = true
    · simp [h, hindex', materializeBlock_replay]
    · have hunsigned := (PiAssistantMessage.of_not_hasReplay h).2.2.2
      simp [h, materializeBlock_unsigned (hunsigned _ (List.getElem_mem hindex'))]

/-! ## Parts -/

/-- The part without the signature of its text. -/
def PiPart.bare : PiPart → PiPart
  | .text part => .text (.bare part.text)
  | .image part => .image part

def PiPart.isText : PiPart → Bool
  | .text _ => true
  | .image _ => false

/-- The text of a text part, as durable content. -/
def PiPart.durableText : PiPart → Option MessageContent
  | .text part => some (.text part.text)
  | .image _ => none

def durableTexts (parts : List PiPart) : List MessageContent := parts.filterMap PiPart.durableText

/-- The durable content of text parts is what the caller gives, or nothing is given. -/
def IsDurableContent (durableContent : Option (List MessageContent)) (parts : List PiPart) : Prop :=
  durableContent = none ∨ durableContent = some (durableTexts parts)

section Parts

variable {codec : ImageCodec} {parts : List PiPart}

theorem durableTexts_cons_text (part : PiText) (parts : List PiPart) :
    durableTexts (.text part :: parts) = .text part.text :: durableTexts parts := rfl

theorem captureBareParts (h : parts.all PiPart.isText = true) :
    parts.mapM captureBarePart = .ok (durableTexts parts) := by
  induction parts with
  | nil => rfl
  | cons part rest ih =>
    rw [List.all_cons, Bool.and_eq_true] at h
    cases part with
    | image part => cases h.1
    | text part =>
      rw [List.mapM_cons, ih h.2]
      rfl

theorem captureAlignedParts (h : parts.all PiPart.isText = true) :
    (parts.zip (durableTexts parts)).mapM (captureAlignedPart codec) =
      .ok (durableTexts parts) := by
  induction parts with
  | nil => rfl
  | cons part rest ih =>
    rw [List.all_cons, Bool.and_eq_true] at h
    cases part with
    | image part => cases h.1
    | text part =>
      rw [durableTexts_cons_text, List.zip_cons_cons, List.mapM_cons, ih h.2]
      simp [captureAlignedPart]
      rfl

theorem length_durableTexts (h : parts.all PiPart.isText = true) :
    (durableTexts parts).length = parts.length := by
  induction parts with
  | nil => rfl
  | cons part rest ih =>
    rw [List.all_cons, Bool.and_eq_true] at h
    cases part with
    | image part => cases h.1
    | text part => simp [durableTexts_cons_text, ih h.2]

/-- Text parts are captured as their texts, whether or not their durable content is given. -/
theorem captureDurableMediaContent_texts {durableContent : Option (List MessageContent)}
    (h : parts.all PiPart.isText = true) (hdurable : IsDurableContent durableContent parts) :
    captureDurableMediaContent codec parts durableContent = .ok (durableTexts parts) := by
  rcases hdurable with rfl | rfl
  · exact captureBareParts h
  · simp only [captureDurableMediaContent, length_durableTexts h, ne_eq, not_true_eq_false,
      if_false]
    exact captureAlignedParts h

theorem materializeParts (takeImage : ImageReference → Materialization PiImage)
    (h : parts.all PiPart.isText = true) :
    (durableTexts parts).mapM (materializePart takeImage) = pure (parts.map PiPart.bare) := by
  induction parts with
  | nil => rfl
  | cons part rest ih =>
    rw [List.all_cons, Bool.and_eq_true] at h
    cases part with
    | image part => cases h.1
    | text part =>
      rw [durableTexts_cons_text, List.mapM_cons, ih h.2]
      simp [materializePart, PiPart.bare]

theorem all_isText_bare (h : parts.all PiPart.isText = true) :
    (parts.map PiPart.bare).all PiPart.isText = true := by
  rw [List.all_map]
  refine (List.all_congr rfl fun part => ?_).trans h
  cases part <;> rfl

theorem durableTexts_bare (parts : List PiPart) :
    durableTexts (parts.map PiPart.bare) = durableTexts parts := by
  unfold durableTexts
  rw [List.filterMap_map]
  refine congrArg (List.filterMap · parts) (funext fun part => ?_)
  cases part <;> rfl

theorem imageReferences_durableTexts (parts : List PiPart) :
    imageReferences (durableTexts parts) = [] := by
  unfold imageReferences durableTexts
  rw [List.filterMap_filterMap, List.filterMap_eq_nil_iff]
  intro part _
  cases part <;> rfl

end Parts

/-! ## Messages -/

/-- The message without what its capture does not keep of a usage and of Tool names. -/
def PiMessage.unmetered : PiMessage → PiMessage
  | .user message => .user message
  | .assistant message => .assistant { message with usage := .zero }
  | .toolResult message =>
    .toolResult { message with
      addedToolNames := message.addedToolNames.filter (0 < ·.length) }

/-- The message with the texts of its parts unsigned; the blocks of an assistant message keep
their signatures. -/
def PiMessage.bare : PiMessage → PiMessage
  | .user ⟨.string text, timestamp⟩ => .user ⟨.string text, timestamp⟩
  | .user ⟨.parts parts, timestamp⟩ => .user ⟨.parts (parts.map PiPart.bare), timestamp⟩
  | .assistant message => .assistant message
  | .toolResult message =>
    .toolResult { message with content := message.content.map PiPart.bare }

/-- The parts of a user message or of a Tool result. -/
def PiMessage.parts : PiMessage → List PiPart
  | .user ⟨.string text, _⟩ => [.text (.bare text)]
  | .user ⟨.parts parts, _⟩ => parts
  | .assistant _ => []
  | .toolResult message => message.content

def PiMessage.WithoutMedia (message : PiMessage) : Prop :=
  message.parts.all PiPart.isText = true

/-- An assistant message ended with a stop reason a transcript keeps. -/
def PiMessage.Ended : PiMessage → Prop
  | .assistant message => message.stopReason.durable.isSome = true
  | _ => True

/-- The durable message asks for no image and is materialised as `back`. -/
structure DurableTranscriptMessage.MaterializesAs (durable : DurableTranscriptMessage)
    (back : PiMessage) : Prop where
  withoutMedia : ∀ stream, mediaReadRequests stream durable = []
  materialized : ∀ takeImage, materializeMessage durable takeImage = pure back

/-- A transcript without images is materialised message by message. -/
theorem materializeMessages_eq {codec : ImageCodec} {durables : List DurableTranscriptMessage}
    {backs : List PiMessage}
    (h : List.Forall₂ DurableTranscriptMessage.MaterializesAs durables backs) (stream : StreamKey)
    (media : Option (List TranscriptMediaReadRequest → Except CaptureError (List PiImage))) :
    materializeMessages codec stream durables media = .ok backs := by
  have hrequests : durables.flatMap (mediaReadRequests stream) = [] := by
    induction h with
    | nil => rfl
    | cons hhead _ ih => rw [List.flatMap_cons, hhead.withoutMedia, ih, List.append_nil]
  have hmaterialized : ∀ takeImage,
      durables.mapM (materializeMessage · takeImage) = (pure backs : Materialization _) := by
    intro takeImage
    induction h with
    | nil => rfl
    | cons hhead _ ih =>
      rw [List.flatMap_cons, List.append_eq_nil_iff] at hrequests
      rw [List.mapM_cons, hhead.materialized, ih hrequests.2]
      rfl
  simp only [materializeMessages, hrequests, hmaterialized]
  rfl

/-- A user message that is a list of parts has a part. -/
def PiMessage.HasParts : PiMessage → Prop
  | .user ⟨.parts parts, _⟩ => parts ≠ []
  | _ => True

/-- The message is captured as an aligned durable message that is materialised as `back`, from
which the same durable message is captured. -/
def PiMessage.ReplaysAs (codec : ImageCodec) (durableContent : Option (List MessageContent))
    (message back : PiMessage) : Prop :=
  ∃ durable, captureTranscriptMessage codec message durableContent = .ok (some durable) ∧
    assertMessagesReplayAlignment [durable] = .ok () ∧
    (∀ stream media, materializeMessages codec stream [durable] media = .ok [back]) ∧
    captureTranscriptMessage codec back durableContent = .ok (some durable)

theorem PiStopReason.pi_of_durable {reason : PiStopReason} {stopReason : StopReason}
    (h : reason.durable = some stopReason) : stopReason.pi = reason := by
  cases reason <;> cases h <;> rfl

theorem PiStopReason.durable_pi (stopReason : StopReason) :
    stopReason.pi.durable = some stopReason ∧ stopReason.pi ≠ .deferred := by
  cases stopReason <;> exact ⟨rfl, nofun⟩

section Messages

variable {codec : ImageCodec} {durableContent : Option (List MessageContent)}

theorem captureTranscriptMessage_assistant {message : PiAssistantMessage} {stopReason : StopReason}
    (h : message.stopReason = stopReason.pi) :
    captureTranscriptMessage codec (.assistant message) durableContent =
      .ok (some (.assistant (captureAssistant message stopReason))) := by
  obtain ⟨hdurable, hdeferred⟩ := PiStopReason.durable_pi stopReason
  simp [captureTranscriptMessage, h, hdurable, hdeferred]

/-- What is materialised of a captured assistant message. -/
theorem materialize_captureAssistant {message : PiAssistantMessage} {stopReason : StopReason}
    (h : message.stopReason = stopReason.pi) :
    (DurableTranscriptMessage.assistant (captureAssistant message stopReason)).MaterializesAs
      (.assistant { message with usage := .zero }) := by
  refine ⟨fun _ => rfl, fun takeImage => ?_⟩
  have hcontent := materializeAssistantContent_capture message stopReason
  rw [captureAssistant_eq] at hcontent ⊢
  simp only [materializeMessage, hcontent, ← h]
  by_cases hkeeps : message.hasReplay = true
  · rw [if_pos hkeeps]
    rfl
  · obtain ⟨hmodel, hid, hlevel, -⟩ := PiAssistantMessage.of_not_hasReplay hkeeps
    rw [if_neg hkeeps]
    simp only [Option.bind_none, hmodel, hid, hlevel]

theorem PiMessage.ReplaysAs.of_captures {message back : PiMessage}
    {durable : DurableTranscriptMessage}
    (hcapture : captureTranscriptMessage codec message durableContent = .ok (some durable))
    (haligned : assertMessagesReplayAlignment [durable] = .ok ())
    (hback : durable.MaterializesAs back)
    (hagain : captureTranscriptMessage codec back durableContent = .ok (some durable)) :
    message.ReplaysAs codec durableContent back :=
  ⟨durable, hcapture, haligned, materializeMessages_eq (.cons hback .nil), hagain⟩

theorem assistant_replays {message : PiAssistantMessage}
    (h : message.stopReason.durable.isSome = true) :
    PiMessage.ReplaysAs codec durableContent (.assistant message)
      (.assistant { message with usage := .zero }) := by
  obtain ⟨stopReason, hreason⟩ := Option.isSome_iff_exists.1 h
  have hstop := (PiStopReason.pi_of_durable hreason).symm
  refine .of_captures (captureTranscriptMessage_assistant hstop) ?_
    (materialize_captureAssistant hstop) (captureTranscriptMessage_assistant hstop)
  simp [assertMessagesReplayAlignment, captureAssistant_aligned]
  rfl

theorem string_replays {text : String} {timestamp : Int}
    (hdurable : IsDurableContent durableContent [.text (.bare text)]) :
    PiMessage.ReplaysAs codec durableContent (.user ⟨.string text, timestamp⟩)
      (.user ⟨.string text, timestamp⟩) := by
  have hcapture : captureTranscriptMessage codec (.user ⟨.string text, timestamp⟩) durableContent =
      .ok (some (.user (.text text timestamp))) := by
    simp only [captureTranscriptMessage, captureUserMessage,
      captureDurableMediaContent_texts rfl hdurable]
    rfl
  exact .of_captures hcapture rfl ⟨fun _ => rfl, fun _ => rfl⟩ hcapture

theorem captureTranscriptMessage_parts {parts : List PiPart} {timestamp : Int}
    (hmedia : parts.all PiPart.isText = true) (hdurable : IsDurableContent durableContent parts) :
    captureTranscriptMessage codec (.user ⟨.parts parts, timestamp⟩) durableContent =
      .ok (some (.user (.parts (durableTexts parts) timestamp))) := by
  simp only [captureTranscriptMessage, captureUserMessage,
    captureDurableMediaContent_texts hmedia hdurable]
  rfl

theorem parts_replay {parts : List PiPart} {timestamp : Int}
    (hmedia : parts.all PiPart.isText = true) (hdurable : IsDurableContent durableContent parts)
    (hparts : parts ≠ []) :
    PiMessage.ReplaysAs codec durableContent (.user ⟨.parts parts, timestamp⟩)
      (.user ⟨.parts (parts.map PiPart.bare), timestamp⟩) := by
  refine .of_captures (captureTranscriptMessage_parts hmedia hdurable) rfl ⟨?_, ?_⟩ ?_
  · intro stream
    rw [mediaReadRequests, imageReferences_durableTexts, List.map_nil]
  · intro takeImage
    simp [materializeMessage, materializeParts takeImage hmedia, hparts]
  · have hdurable' : IsDurableContent durableContent (parts.map PiPart.bare) := by
      unfold IsDurableContent
      rw [durableTexts_bare]
      exact hdurable
    rw [captureTranscriptMessage_parts (all_isText_bare hmedia) hdurable', durableTexts_bare]

theorem captureTranscriptMessage_toolResult {message : PiToolResultMessage}
    (hmedia : message.content.all PiPart.isText = true)
    (hdurable : IsDurableContent durableContent message.content) :
    captureTranscriptMessage codec (.toolResult message) durableContent =
      .ok (some (.toolResult ⟨message.toolCallId, message.toolName, durableTexts message.content,
        message.addedToolNames.filter (0 < ·.length), message.isError, message.timestamp⟩)) := by
  simp only [captureTranscriptMessage, captureToolResultMessage,
    captureDurableMediaContent_texts hmedia hdurable]
  rfl

theorem toolResult_replays {message : PiToolResultMessage}
    (hmedia : message.content.all PiPart.isText = true)
    (hdurable : IsDurableContent durableContent message.content) :
    PiMessage.ReplaysAs codec durableContent (.toolResult message)
      (PiMessage.toolResult message).bare.unmetered := by
  refine .of_captures (captureTranscriptMessage_toolResult hmedia hdurable) rfl ⟨?_, ?_⟩ ?_
  · intro stream
    rw [mediaReadRequests, imageReferences_durableTexts, List.map_nil]
  · intro takeImage
    simp [materializeMessage, materializeParts takeImage hmedia]
    rfl
  · have hdurable' : IsDurableContent durableContent (message.content.map PiPart.bare) := by
      unfold IsDurableContent
      rw [durableTexts_bare]
      exact hdurable
    refine (captureTranscriptMessage_toolResult (all_isText_bare hmedia) hdurable').trans ?_
    simp [durableTexts_bare, Option.filter_filter]

/-- A message without media comes back from the transcript with its blocks, signatures, ids and
flags; texts that are parts of a user message or a Tool result come back unsigned. -/
theorem capture_replays (codec : ImageCodec) (message : PiMessage)
    (durableContent : Option (List MessageContent))
    (hdurable : IsDurableContent durableContent message.parts) (hmedia : message.WithoutMedia)
    (hended : message.Ended) (hparts : message.HasParts) :
    message.ReplaysAs codec durableContent message.bare.unmetered := by
  cases message with
  | user message =>
    obtain ⟨content, timestamp⟩ := message
    cases content with
    | string text => exact string_replays hdurable
    | parts parts => exact parts_replay hmedia hdurable hparts
  | assistant message => exact assistant_replays hended
  | toolResult message => exact toolResult_replays hmedia hdurable

/-- A codec for messages that hold no image. -/
def noImages : ImageCodec := ⟨fun _ => none, fun _ => ""⟩

/-- A thinking block that is signed and redacted, a signed text and a Tool call with a
namespace. -/
def signedAnswer : PiAssistantMessage where
  content := [.thinking ⟨"t", some "s", some true⟩, .text ⟨"a", some "u"⟩,
    .toolCall ⟨"c", "n", [], none, some "ns"⟩]
  api := "api"
  provider := "p"
  model := "m"
  responseModel := none
  responseId := some "r"
  providerThinkingLevel := none
  usage := ⟨3, 2, 0, 0, 5, ⟨1, 1, 0, 0, 2⟩⟩
  stopReason := .toolUse
  timestamp := 7

theorem signedAnswer_replays :
    (PiMessage.assistant signedAnswer).ReplaysAs noImages none
      (PiMessage.assistant signedAnswer).bare.unmetered :=
  capture_replays noImages (.assistant signedAnswer) none (Or.inl rfl) rfl rfl trivial

/-- A user message that is an empty list of parts is captured and never materialised, and a
signed text of a user message comes back unsigned. -/
theorem unreplayed_user_messages :
    ¬ (PiMessage.user ⟨.parts [], 0⟩).ReplaysAs noImages none
        (PiMessage.user ⟨.parts [], 0⟩).unmetered ∧
      ¬ (PiMessage.user ⟨.parts [.text ⟨"a", some "u"⟩], 0⟩).ReplaysAs noImages none
        (PiMessage.user ⟨.parts [.text ⟨"a", some "u"⟩], 0⟩).unmetered := by
  refine ⟨?_, ?_⟩
  · rintro ⟨durable, hcapture, -, hback, -⟩
    obtain rfl : DurableTranscriptMessage.user (.parts [] 0) = durable := by
      injection hcapture with hcapture
      exact Option.some.inj hcapture
    cases hback ⟨"s", "a"⟩ none
  · rintro ⟨durable, hcapture, -, hback, -⟩
    obtain rfl : DurableTranscriptMessage.user (.parts [.text "a"] 0) = durable := by
      injection hcapture with hcapture
      exact Option.some.inj hcapture
    cases hback ⟨"s", "a"⟩ none

end Messages

end OpenGameAgent
