import OpenGameAgent.Library.Run
import OpenGameAgent.Protocol.Transcript

/-!
# Folding one transcript record

`foldRecord` of `packages/agent/src/durable-transcript.ts`: the state machine of
the open turn.  One record either extends the open turn, closes it, replaces the
history at a checkpoint, or is refused.

The source mutates the open turn and the message list in place and throws in the
middle; here the new turn and messages are returned, and a refused record returns
the error alone, which is all the scan keeps of it.
-/

namespace OpenGameAgent

/-! ## The open turn -/

/-- A Tool call of the turn's assistant message. -/
structure OpenToolCall where
  assistantRecordId : String
  sourceIndex : Nat
  call : ToolCallContent
  start : Option (RecordOf ToolStarted)
  completed : Bool

inductive DeferredStatus where
  | pending | completed | abandoned
  deriving DecidableEq, Repr

structure OpenDeferred where
  opened : RecordOf DeferredOpened
  status : DeferredStatus

structure OpenTurn where
  coordinate : RunCoordinate
  hasUserMessage : Bool
  assistantRecordId : Option String
  assistantStopReason : Option StopReason
  toolCalls : List OpenToolCall
  deferred : Option OpenDeferred

/-- The turn a first record opens. -/
def OpenTurn.fresh (coordinate : RunCoordinate) : OpenTurn :=
  ⟨coordinate, false, none, none, [], none⟩

/-- The provider operation the turn is waiting for. -/
def OpenTurn.pending (turn : OpenTurn) : Option (RecordOf DeferredOpened) :=
  match turn.deferred with
  | some ⟨opened, .pending⟩ => some opened
  | _ => none

/-- `openToolCalls`, with the source index of the first part. -/
def openToolCallsFrom (assistantRecordId : String) : Nat → List AssistantContent → List OpenToolCall
  | _, [] => []
  | index, .toolCall call :: rest =>
    ⟨assistantRecordId, index, call, none, false⟩ ::
      openToolCallsFrom assistantRecordId (index + 1) rest
  | index, _ :: rest => openToolCallsFrom assistantRecordId (index + 1) rest

def openToolCalls (assistantRecordId : String) (message : AssistantMessage) : List OpenToolCall :=
  openToolCallsFrom assistantRecordId 0 message.content

/-- Is this the call a Tool record names by assistant record and source index? -/
def OpenToolCall.isAt (assistantRecordId : String) (sourceIndex : Nat) (tool : OpenToolCall) :
    Bool :=
  tool.assistantRecordId = assistantRecordId && tool.sourceIndex = sourceIndex

/-- `findToolCall`: the call and its place in the turn. -/
def findToolCall (turn : OpenTurn) (assistantRecordId : String) (sourceIndex : Nat)
    (toolCallId toolName : String) : Except TranscriptError (Nat × OpenToolCall) :=
  let mismatch : TranscriptError :=
    .type "The durable transcript Tool record does not match an assistant call."
  match turn.toolCalls.findIdx? (OpenToolCall.isAt assistantRecordId sourceIndex) with
  | none => .error mismatch
  | some index =>
    match turn.toolCalls[index]? with
    | none => .error mismatch
    | some tool =>
      if tool.call.id = toolCallId ∧ tool.call.name = toolName then .ok (index, tool)
      else .error mismatch

/-! ## The record types -/

/-- The turn after its assistant message, from whichever record brought it. -/
def OpenTurn.withAssistant (turn : OpenTurn) (recordId : String) (message : AssistantMessage) :
    OpenTurn :=
  { turn with
    assistantRecordId := some recordId
    assistantStopReason := some message.stopReason
    toolCalls := openToolCalls recordId message }

def foldUserMessage (turn : OpenTurn) : Except TranscriptError OpenTurn :=
  if turn.assistantRecordId.isSome || turn.deferred.isSome then
    .error (.type
      "The durable transcript inserts user input after an assistant message in the same turn.")
  else .ok { turn with hasUserMessage := true }

def foldAssistantMessage (turn : OpenTurn) (recordId : String) (message : AssistantMessage) :
    Except TranscriptError OpenTurn :=
  if turn.assistantRecordId.isSome || turn.deferred.isSome then
    .error (.type "The durable transcript contains more than one assistant message in a turn.")
  else .ok (turn.withAssistant recordId message)

def foldDeferredOpened (turn : OpenTurn) (record : RecordOf DeferredOpened) :
    Except TranscriptError OpenTurn :=
  if turn.deferred.isSome then
    .error (.type "The durable transcript contains a second open provider operation in one turn.")
  else if turn.assistantRecordId.isSome then
    .error (.type
      "The durable transcript provider operation follows an assistant in the same turn.")
  else .ok { turn with deferred := some ⟨record, .pending⟩ }

/-- The pending operation a settlement names, if it names it exactly. -/
def matchPending (turn : OpenTurn) (operationId openedRecordId : String) :
    Option (RecordOf DeferredOpened) :=
  match turn.pending with
  | some opened =>
    if opened.data.operationId = operationId ∧ opened.recordId = openedRecordId then some opened
    else none
  | none => none

def foldDeferredCompleted (turn : OpenTurn) (recordId : String) (data : DeferredCompleted) :
    Except TranscriptError OpenTurn :=
  match matchPending turn data.operationId data.openedRecordId with
  | none =>
    .error (.type
      "The durable transcript provider completion does not match its open operation.")
  | some opened =>
    if data.message.api ≠ opened.data.handle.api ∨
        data.message.provider ≠ opened.data.handle.provider ∨
        data.message.model ≠ opened.data.handle.modelId then
      .error (.type
        "The durable transcript provider completion does not match its provider origin.")
    else
      .ok { turn.withAssistant recordId data.message with
        deferred := some ⟨opened, .completed⟩ }

def foldDeferredAbandoned (turn : OpenTurn) (data : DeferredAbandoned) :
    Except TranscriptError OpenTurn :=
  match matchPending turn data.operationId data.openedRecordId with
  | none =>
    .error (.type
      "The durable transcript provider abandonment does not match its open operation.")
  | some opened => .ok { turn with deferred := some ⟨opened, .abandoned⟩ }

def foldToolStarted (turn : OpenTurn) (record : RecordOf ToolStarted) :
    Except TranscriptError OpenTurn := do
  let (index, tool) ← findToolCall turn record.data.assistantRecordId record.data.sourceIndex
    record.data.toolCallId record.data.toolName
  if tool.start.isSome then
    .error (.type "The durable transcript starts one Tool call more than once.")
  else if tool.completed then
    .error (.type "The durable transcript starts a Tool call after its result.")
  else .ok { turn with toolCalls := turn.toolCalls.set index { tool with start := some record } }

def foldToolCompleted (turn : OpenTurn) (data : ToolCompleted) :
    Except TranscriptError OpenTurn :=
  match turn.toolCalls.findIdx? (fun tool => !tool.completed) with
  | none => .error (.type "The durable transcript contains an orphan Tool result.")
  | some next => do
    let (index, tool) ← findToolCall turn data.assistantRecordId data.sourceIndex
      data.message.toolCallId data.message.toolName
    if index ≠ next then
      .error (.type "The durable transcript Tool results are not in assistant source order.")
    else if data.outcome ≠ .notStarted ∧ tool.start.isNone then
      .error (.type "The durable transcript result requires a Tool start record.")
    else if data.startedRecordId ≠ tool.start.map RecordOf.recordId then
      .error (.type "The durable transcript Tool result does not match its start record.")
    else .ok { turn with toolCalls := turn.toolCalls.set index { tool with completed := true } }

/-- A `turn.closed` record over the open turn it closes. -/
def foldTurnClosed (openTurn : Option OpenTurn) (coordinate : RunCoordinate)
    (status : TurnStatus) : Except TranscriptError Unit :=
  match openTurn with
  | none => .error (.type "The durable transcript contains an orphan turn closure.")
  | some turn =>
    if turn.coordinate ≠ coordinate then
      .error (.type "The durable transcript contains an orphan turn closure.")
    else if turn.pending.isSome then
      .error (.type "The durable transcript closes a turn with a pending provider operation.")
    else if turn.toolCalls.any (fun tool => !tool.completed) then
      .error (.type "The durable transcript closes a turn with unanswered Tool calls.")
    else if status = .completed ∧ turn.assistantRecordId.isNone then
      .error (.type "A completed durable turn requires a terminal assistant message.")
    else .ok ()

/-- A record of a turn, folded into the turn that is open for it. -/
def foldTurnRecord (turn : OpenTurn) (record : DurableTranscriptRecord) :
    Except TranscriptError OpenTurn :=
  match record.data with
  | .userCompleted _ => foldUserMessage turn
  | .assistantCompleted message => foldAssistantMessage turn record.recordId message
  | .toolStarted data => foldToolStarted turn (record.narrow data)
  | .toolCompleted data => foldToolCompleted turn data
  | .deferredOpened data => foldDeferredOpened turn (record.narrow data)
  | .deferredCompleted data => foldDeferredCompleted turn record.recordId data
  | .deferredAbandoned data => foldDeferredAbandoned turn data
  | _ => .ok turn

/-- The message a record appends to the history. -/
def RecordData.appendedMessage : RecordData → Option DurableTranscriptMessage
  | .userCompleted m => some (.user m)
  | .assistantCompleted m => some (.assistant m)
  | .toolCompleted d => some (.toolResult d.message)
  | .deferredCompleted d => some (.assistant d.message)
  | _ => none

def foldRecord (record : DurableTranscriptRecord) (openTurn : Option OpenTurn)
    (messages : List DurableTranscriptMessage)
    (previousRecord : Option DurableTranscriptRecord) :
    Except TranscriptError (Option OpenTurn × List DurableTranscriptMessage) :=
  match record.data with
  | .deferredRunClosed _ =>
    if openTurn.isSome then
      .error (.type "The durable transcript closes a deferred run before its turn closes.")
    else .ok (none, messages)
  | .contextCheckpoint data =>
    match openTurn, previousRecord with
    | none, some source =>
      match source.data with
      | .turnClosed _ => do
        assertExactTranscriptCheckpointBoundary record data source
        return (none, data.replacement)
      | _ =>
        .error (.type
          "The durable transcript checkpoint does not follow its closed source boundary.")
    | _, _ =>
      .error (.type
        "The durable transcript checkpoint does not follow its closed source boundary.")
  | .turnClosed status => do
    foldTurnClosed openTurn record.coordinate status
    return (none, messages)
  | data =>
    let current := openTurn.getD (OpenTurn.fresh record.coordinate)
    if current.coordinate ≠ record.coordinate then
      .error (.type
        "The durable transcript starts a new turn before closing the previous turn.")
    else do
      let turn ← foldTurnRecord current record
      return (some turn, messages ++ data.appendedMessage.toList)

/-! ## When a record folds -/

variable {turn turn' : OpenTurn}

theorem foldUserMessage_eq_ok_iff :
    foldUserMessage turn = .ok turn' ↔
      turn.assistantRecordId = none ∧ turn.deferred = none ∧
        turn' = { turn with hasUserMessage := true } := by
  unfold foldUserMessage
  cases turn.assistantRecordId <;> cases turn.deferred <;> simp [eq_comm]

theorem foldAssistantMessage_eq_ok_iff {recordId : String} {message : AssistantMessage} :
    foldAssistantMessage turn recordId message = .ok turn' ↔
      turn.assistantRecordId = none ∧ turn.deferred = none ∧
        turn' = turn.withAssistant recordId message := by
  unfold foldAssistantMessage
  cases turn.assistantRecordId <;> cases turn.deferred <;> simp [eq_comm]

theorem foldDeferredOpened_eq_ok_iff {record : RecordOf DeferredOpened} :
    foldDeferredOpened turn record = .ok turn' ↔
      turn.assistantRecordId = none ∧ turn.deferred = none ∧
        turn' = { turn with deferred := some ⟨record, .pending⟩ } := by
  unfold foldDeferredOpened
  cases turn.assistantRecordId <;> cases turn.deferred <;> simp [eq_comm]

theorem matchPending_eq_some_iff {operationId openedRecordId : String}
    {opened : RecordOf DeferredOpened} :
    matchPending turn operationId openedRecordId = some opened ↔
      turn.pending = some opened ∧ opened.data.operationId = operationId ∧
        opened.recordId = openedRecordId := by
  unfold matchPending
  cases h : turn.pending with
  | none => simp
  | some other =>
    by_cases hm : other.data.operationId = operationId ∧ other.recordId = openedRecordId
    · simp only [if_pos hm, Option.some.injEq]
      constructor
      · rintro rfl; exact ⟨rfl, hm⟩
      · exact fun hc => hc.1
    · simp only [if_neg hm, Option.some.injEq, reduceCtorEq, false_iff, not_and]
      rintro rfl
      exact fun h1 h2 => hm ⟨h1, h2⟩

theorem foldDeferredCompleted_eq_ok_iff {recordId : String} {data : DeferredCompleted} :
    foldDeferredCompleted turn recordId data = .ok turn' ↔
      ∃ opened, turn.pending = some opened ∧ opened.data.operationId = data.operationId ∧
        opened.recordId = data.openedRecordId ∧ data.message.api = opened.data.handle.api ∧
        data.message.provider = opened.data.handle.provider ∧
        data.message.model = opened.data.handle.modelId ∧
        turn' = { turn.withAssistant recordId data.message with
          deferred := some ⟨opened, .completed⟩ } := by
  unfold foldDeferredCompleted
  cases h : matchPending turn data.operationId data.openedRecordId with
  | none =>
    simp only [reduceCtorEq, false_iff, not_exists]
    rintro opened ⟨hp, h1, h2, -⟩
    rw [matchPending_eq_some_iff.2 ⟨hp, h1, h2⟩] at h
    cases h
  | some opened =>
    obtain ⟨hp, h1, h2⟩ := matchPending_eq_some_iff.1 h
    simp only [ne_eq]
    constructor
    · intro hok
      split at hok
      · cases hok
      · rename_i hm
        simp only [not_or, not_not] at hm
        rw [Except.ok.injEq] at hok
        exact ⟨opened, hp, h1, h2, hm.1, hm.2.1, hm.2.2, hok.symm⟩
    · rintro ⟨other, ho, -, -, h3, h4, h5, rfl⟩
      rw [hp, Option.some.injEq] at ho
      subst ho
      rw [if_neg (by simp [h3, h4, h5])]

theorem foldDeferredAbandoned_eq_ok_iff {data : DeferredAbandoned} :
    foldDeferredAbandoned turn data = .ok turn' ↔
      ∃ opened, turn.pending = some opened ∧ opened.data.operationId = data.operationId ∧
        opened.recordId = data.openedRecordId ∧
        turn' = { turn with deferred := some ⟨opened, .abandoned⟩ } := by
  unfold foldDeferredAbandoned
  cases h : matchPending turn data.operationId data.openedRecordId with
  | none =>
    simp only [reduceCtorEq, false_iff, not_exists]
    rintro opened ⟨hp, h1, h2, -⟩
    rw [matchPending_eq_some_iff.2 ⟨hp, h1, h2⟩] at h
    cases h
  | some opened =>
    obtain ⟨hp, h1, h2⟩ := matchPending_eq_some_iff.1 h
    simp only [Except.ok.injEq]
    constructor
    · rintro rfl
      exact ⟨opened, hp, h1, h2, rfl⟩
    · rintro ⟨other, ho, -, -, rfl⟩
      rw [hp, Option.some.injEq] at ho
      rw [ho]

/-- The call a Tool record names, in its place in the turn. -/
structure NamesCall (turn : OpenTurn) (assistantRecordId : String) (sourceIndex : Nat)
    (toolCallId toolName : String) (index : Nat) (tool : OpenToolCall) : Prop where
  found : turn.toolCalls.findIdx? (OpenToolCall.isAt assistantRecordId sourceIndex) = some index
  at_index : turn.toolCalls[index]? = some tool
  id : tool.call.id = toolCallId
  name : tool.call.name = toolName

theorem findToolCall_eq_ok_iff {assistantRecordId : String} {sourceIndex : Nat}
    {toolCallId toolName : String} {index : Nat} {tool : OpenToolCall} :
    findToolCall turn assistantRecordId sourceIndex toolCallId toolName = .ok (index, tool) ↔
      NamesCall turn assistantRecordId sourceIndex toolCallId toolName index tool := by
  unfold findToolCall
  constructor
  · intro h
    dsimp only at h
    split at h
    · cases h
    · rename_i i hfound
      split at h
      · cases h
      · rename_i t hat
        split at h
        · rename_i hm
          rw [Except.ok.injEq, Prod.mk.injEq] at h
          obtain ⟨rfl, rfl⟩ := h
          exact ⟨hfound, hat, hm.1, hm.2⟩
        · cases h
  · rintro ⟨hfound, hat, hid, hname⟩
    simp only [hfound, hat, hid, hname, and_self, if_true]

theorem foldToolStarted_eq_ok_iff {record : RecordOf ToolStarted} :
    foldToolStarted turn record = .ok turn' ↔
      ∃ index tool, NamesCall turn record.data.assistantRecordId record.data.sourceIndex
        record.data.toolCallId record.data.toolName index tool ∧
        tool.start = none ∧ tool.completed = false ∧
        turn' = { turn with
          toolCalls := turn.toolCalls.set index { tool with start := some record } } := by
  unfold foldToolStarted
  rw [bind_eq_ok]
  constructor
  · rintro ⟨⟨index, tool⟩, hfind, h⟩
    dsimp only at h
    split at h
    · cases h
    · rename_i hstart
      split at h
      · cases h
      · rename_i hcompleted
        rw [Except.ok.injEq] at h
        refine ⟨index, tool, findToolCall_eq_ok_iff.1 hfind, ?_, ?_, h.symm⟩
        · simpa using hstart
        · simpa using hcompleted
  · rintro ⟨index, tool, hnames, hstart, hcompleted, rfl⟩
    exact ⟨(index, tool), findToolCall_eq_ok_iff.2 hnames, by simp [hstart, hcompleted]⟩

theorem foldToolCompleted_eq_ok_iff {data : ToolCompleted} :
    foldToolCompleted turn data = .ok turn' ↔
      ∃ index tool, turn.toolCalls.findIdx? (fun tool => !tool.completed) = some index ∧
        NamesCall turn data.assistantRecordId data.sourceIndex data.message.toolCallId
          data.message.toolName index tool ∧
        (data.outcome ≠ .notStarted → tool.start.isSome = true) ∧
        data.startedRecordId = tool.start.map RecordOf.recordId ∧
        turn' = { turn with
          toolCalls := turn.toolCalls.set index { tool with completed := true } } := by
  unfold foldToolCompleted
  constructor
  · intro h
    split at h
    · cases h
    · rename_i next hnext
      obtain ⟨⟨index, tool⟩, hfind, hok⟩ := bind_eq_ok.1 h
      dsimp only at hok
      split at hok
      · cases hok
      · rename_i hindex
        split at hok
        · cases hok
        · rename_i hstart
          split at hok
          · cases hok
          · rename_i hrecord
            rw [Except.ok.injEq] at hok
            rw [not_not] at hindex hrecord
            subst hindex
            refine ⟨index, tool, hnext, findToolCall_eq_ok_iff.1 hfind, ?_, hrecord, hok.symm⟩
            intro hout
            by_contra hnone
            exact hstart ⟨hout, by simpa using hnone⟩
  · rintro ⟨index, tool, hnext, hnames, hstart, hrecord, rfl⟩
    simp only [hnext]
    refine bind_eq_ok.2 ⟨(index, tool), findToolCall_eq_ok_iff.2 hnames, ?_⟩
    have h1 : ¬ (data.outcome ≠ .notStarted ∧ tool.start.isNone = true) := by
      rintro ⟨hout, hnone⟩
      rw [Option.isNone_iff_eq_none] at hnone
      have hsome := hstart hout
      rw [hnone] at hsome
      cases hsome
    simp only [ne_eq, not_true_eq_false, if_false, if_neg h1, hrecord]

theorem foldTurnClosed_eq_ok_iff {openTurn : Option OpenTurn} {coordinate : RunCoordinate}
    {status : TurnStatus} :
    foldTurnClosed openTurn coordinate status = .ok () ↔
      ∃ turn, openTurn = some turn ∧ turn.coordinate = coordinate ∧ turn.pending = none ∧
        (∀ tool ∈ turn.toolCalls, tool.completed = true) ∧
        (status = .completed → turn.assistantRecordId.isSome = true) := by
  unfold foldTurnClosed
  cases openTurn with
  | none => simp
  | some turn =>
    simp only [Option.some.injEq, exists_eq_left']
    constructor
    · intro h
      split at h
      · cases h
      · rename_i hcoordinate
        split at h
        · cases h
        · rename_i hpending
          split at h
          · cases h
          · rename_i hcalls
            split at h
            · cases h
            · rename_i hassistant
              refine ⟨not_not.1 hcoordinate, by simpa using hpending, by simpa using hcalls, ?_⟩
              intro hs
              by_contra hnone
              exact hassistant ⟨hs, by simpa using hnone⟩
    · rintro ⟨hcoordinate, hpending, hcalls, hassistant⟩
      have h1 : turn.toolCalls.any (fun tool => !tool.completed) = false := by
        simpa using hcalls
      have h2 : ¬ (status = .completed ∧ turn.assistantRecordId.isNone = true) := by
        rintro ⟨hs, hnone⟩
        rw [Option.isNone_iff_eq_none] at hnone
        have hsome := hassistant hs
        rw [hnone] at hsome
        cases hsome
      simp only [ne_eq, hcoordinate, not_true_eq_false, if_false, hpending, Option.isSome_none,
        Bool.false_eq_true, h1, if_neg h2]

/-- The records that belong to a turn that is still open behind them. -/
def RecordData.inTurn : RecordData → Bool
  | .turnClosed _ | .contextCheckpoint _ | .deferredRunClosed _ => false
  | _ => true

/-- A record of a turn folds into the open turn, or opens one. -/
theorem foldRecord_inTurn {record : DurableTranscriptRecord} (h : record.data.inTurn = true)
    {openTurn openTurn' : Option OpenTurn} {messages messages' : List DurableTranscriptMessage}
    {previousRecord : Option DurableTranscriptRecord} :
    foldRecord record openTurn messages previousRecord = .ok (openTurn', messages') ↔
      (openTurn.getD (OpenTurn.fresh record.coordinate)).coordinate = record.coordinate ∧
      ∃ turn, foldTurnRecord (openTurn.getD (OpenTurn.fresh record.coordinate)) record = .ok turn ∧
        openTurn' = some turn ∧ messages' = messages ++ record.data.appendedMessage.toList := by
  obtain ⟨recordId, sequence, coordinate, data⟩ := record
  have hcommon : ∀ (record : DurableTranscriptRecord) (current : OpenTurn),
      (if current.coordinate ≠ record.coordinate then
          (.error (.type
            "The durable transcript starts a new turn before closing the previous turn.") :
            Except TranscriptError (Option OpenTurn × List DurableTranscriptMessage))
        else do
          let turn ← foldTurnRecord current record
          return (some turn, messages ++ record.data.appendedMessage.toList)) =
        .ok (openTurn', messages') ↔
      current.coordinate = record.coordinate ∧
      ∃ turn, foldTurnRecord current record = .ok turn ∧ openTurn' = some turn ∧
        messages' = messages ++ record.data.appendedMessage.toList := by
    intro record current
    by_cases hc : current.coordinate = record.coordinate
    · rw [if_neg (not_not.2 hc), bind_eq_ok]
      simp only [hc, true_and, pure, Except.pure, Except.ok.injEq, Prod.mk.injEq]
      constructor
      · rintro ⟨turn, hfold, rfl, rfl⟩; exact ⟨turn, hfold, rfl, rfl⟩
      · rintro ⟨turn, hfold, rfl, rfl⟩; exact ⟨turn, hfold, rfl, rfl⟩
    · simp [hc]
  cases data with
  | turnClosed _ => simp [RecordData.inTurn] at h
  | contextCheckpoint _ => simp [RecordData.inTurn] at h
  | deferredRunClosed _ => simp [RecordData.inTurn] at h
  | _ => exact hcommon _ _

theorem foldRecord_turnClosed {record : DurableTranscriptRecord} {status : TurnStatus}
    (h : record.data = .turnClosed status)
    {openTurn openTurn' : Option OpenTurn} {messages messages' : List DurableTranscriptMessage}
    {previousRecord : Option DurableTranscriptRecord} :
    foldRecord record openTurn messages previousRecord = .ok (openTurn', messages') ↔
      foldTurnClosed openTurn record.coordinate status = .ok () ∧ openTurn' = none ∧
        messages' = messages := by
  unfold foldRecord
  rw [h]
  simp only [bind_eq_ok, pure, Except.pure, Except.ok.injEq, Prod.mk.injEq]
  constructor
  · rintro ⟨u, hfold, rfl, rfl⟩; exact ⟨hfold, rfl, rfl⟩
  · rintro ⟨hfold, rfl, rfl⟩; exact ⟨(), hfold, rfl, rfl⟩

theorem foldRecord_checkpoint {record : DurableTranscriptRecord} {data : ContextCheckpoint}
    (h : record.data = .contextCheckpoint data)
    {openTurn openTurn' : Option OpenTurn} {messages messages' : List DurableTranscriptMessage}
    {previousRecord : Option DurableTranscriptRecord} :
    foldRecord record openTurn messages previousRecord = .ok (openTurn', messages') ↔
      openTurn = none ∧ (∃ source, previousRecord = some source ∧
        assertExactTranscriptCheckpointBoundary record data source = .ok ()) ∧
        openTurn' = none ∧ messages' = data.replacement := by
  unfold foldRecord
  rw [h]
  cases openTurn with
  | some turn => simp
  | none =>
    cases previousRecord with
    | none => simp
    | some source =>
      simp only [true_and, Option.some.injEq, exists_eq_left']
      cases hdata : source.data with
      | turnClosed status =>
        simp only [bind_eq_ok, pure, Except.pure, Except.ok.injEq, Prod.mk.injEq]
        constructor
        · rintro ⟨u, hok, rfl, rfl⟩; exact ⟨hok, rfl, rfl⟩
        · rintro ⟨hok, rfl, rfl⟩; exact ⟨(), hok, rfl, rfl⟩
      | _ =>
        simp only [assertExactTranscriptCheckpointBoundary, hdata, reduceCtorEq, false_and]

theorem foldRecord_deferredRunClosed {record : DurableTranscriptRecord} {data : DeferredRunClosed}
    (h : record.data = .deferredRunClosed data)
    {openTurn openTurn' : Option OpenTurn} {messages messages' : List DurableTranscriptMessage}
    {previousRecord : Option DurableTranscriptRecord} :
    foldRecord record openTurn messages previousRecord = .ok (openTurn', messages') ↔
      openTurn = none ∧ openTurn' = none ∧ messages' = messages := by
  unfold foldRecord
  rw [h]
  cases openTurn <;> simp [eq_comm]

end OpenGameAgent
