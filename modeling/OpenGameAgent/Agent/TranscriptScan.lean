import OpenGameAgent.Library.OrderedMap
import OpenGameAgent.Agent.TranscriptFold

/-!
# Scanning a committed transcript

`DurableTranscript.scanCommittedTranscript` of
`packages/agent/src/durable-transcript.ts`: the loop every restore and every
historical materialisation runs over the whole stored log.

`ScanState` holds the variables of the loop, `scanRecord` is its body and
`scanRecords` the loop.  The body is cut where the source is: `admitRecord` checks
the record against the log so far, `trackRecord` updates the maps about deferred
provider operations, `foldRecord` moves the open turn, `closeScanStep` records the
closed turn and the target revision.
-/

namespace OpenGameAgent

/-! ## Limits and snapshots -/

/-- The limits a `DurableTranscript` is constructed with. -/
structure TranscriptLimits where
  maxRecordBytes : Nat
  maxCommitBytes : Nat
  maxRestoreBytes : Nat
  maxJsonDepth : Nat
  deriving DecidableEq, Repr

@[irreducible] def DurableTranscriptRecord.bytes (r : DurableTranscriptRecord) : Nat :=
  jsonBytes r.toJson

def ReplayBlock.matchesContent : ReplayBlock → AssistantContent → Bool
  | .text _, .text _ => true
  | .thinking _ _, .thinking _ => true
  | .toolCall _, .toolCall _ => true
  | _, _ => false

/-- `assertAssistantReplayAlignment`. -/
def assertAssistantReplayAlignment (m : AssistantMessage) : Except TranscriptError Unit :=
  match m.providerReplay with
  | none => .ok ()
  | some replay =>
    if replay.api ≠ m.api ∨ replay.provider ≠ m.provider ∨ replay.model ≠ m.model ∨
        replay.stopReason ≠ m.stopReason ∨ replay.blocks.length ≠ m.content.length then
      .error (.type
        "The durable provider replay envelope does not match its assistant message.")
    else if (replay.blocks.zip m.content).all fun p => p.1.matchesContent p.2 then .ok ()
    else
      .error (.type "The durable provider replay block does not match its assistant content.")

def assertMessagesReplayAlignment : List DurableTranscriptMessage → Except TranscriptError Unit
  | [] => .ok ()
  | .assistant m :: rest => do
    assertAssistantReplayAlignment m
    assertMessagesReplayAlignment rest
  | _ :: rest => assertMessagesReplayAlignment rest

def assertRecordReplayAlignment : RecordData → Except TranscriptError Unit
  | .assistantCompleted m => assertAssistantReplayAlignment m
  | .deferredCompleted d => assertAssistantReplayAlignment d.message
  | .contextCheckpoint d => assertMessagesReplayAlignment d.replacement
  | _ => .ok ()

/-- `snapshotRecord`: the record within the byte and depth limits and valid. -/
def snapshotRecord (limits : TranscriptLimits) (record : DurableTranscriptRecord) :
    Except TranscriptError Unit :=
  if jsonDepth record.toJson > limits.maxJsonDepth then .error .jsonTooDeep
  else if DurableTranscriptRecord.bytes record > limits.maxRecordBytes then .error .jsonTooLarge
  else if !DurableTranscriptRecord.valid record then .error .invalidRecord
  else assertRecordReplayAlignment record.data

/-- `snapshotRevision`. -/
def snapshotRevision (limits : TranscriptLimits) (revision : TranscriptRevision) :
    Except TranscriptError Unit :=
  match revision with
  | .empty => .ok ()
  | .at sequence =>
    if (toString sequence).length > limits.maxRecordBytes then
      .error (.range "The durable transcript revision exceeds its record budget.")
    else .ok ()

/-! ## The state of the loop -/

inductive DeferredSettlement where
  | completed | abandoned
  deriving DecidableEq, Repr

structure TranscriptClosedTurn where
  coordinate : RunCoordinate
  status : TurnStatus
  assistantStopReason : Option StopReason
  deriving DecidableEq, Repr

structure TranscriptDeferredRun where
  coordinate : RunCoordinate
  inputId : String
  operationId : String
  status : RunStatus
  deriving DecidableEq, Repr

structure TranscriptScanTarget where
  revision : TranscriptRevision
  checkpointRevision : Option Nat
  durableMessages : List DurableTranscriptMessage

structure TranscriptStoredStream where
  revision : TranscriptRevision
  records : List DurableTranscriptRecord

structure ScanState where
  bytes : Nat
  expected : Nat
  hasRetainedPrefix : Bool
  actualRevision : TranscriptRevision
  openTurn : Option OpenTurn
  checkpointRevision : Option Nat
  previousRecord : Option DurableTranscriptRecord
  deferredOrigins : OrderedMap String (RecordOf DeferredOpened)
  latestDeferredOrigins : OrderedMap String (RecordOf DeferredOpened)
  deferredSettlements : OrderedMap String DeferredSettlement
  closedDeferredRuns : List String
  lastClosedTurns : OrderedMap String TranscriptClosedTurn
  terminalDeferredRuns : List TranscriptDeferredRun
  finalOutputs : OrderedMap String String
  recordIds : List String
  durableMessages : List DurableTranscriptMessage
  target : Option TranscriptScanTarget

def ScanState.initial (targetRevision : Option TranscriptRevision) : ScanState where
  bytes := 0
  expected := 1
  hasRetainedPrefix := false
  actualRevision := .empty
  openTurn := none
  checkpointRevision := none
  previousRecord := none
  deferredOrigins := .empty
  latestDeferredOrigins := .empty
  deferredSettlements := .empty
  closedDeferredRuns := []
  lastClosedTurns := .empty
  terminalDeferredRuns := []
  finalOutputs := .empty
  recordIds := []
  durableMessages := []
  target := if targetRevision = some .empty then some ⟨.empty, none, []⟩ else none

/-! ## The body of the loop -/

/-- `durableAssistantText`. -/
def durableAssistantText (m : AssistantMessage) : Option String :=
  let text := String.join (m.content.filterMap fun
    | .text t => some t
    | _ => none)
  if hasVisibleText text then some text else none

/-- The first record of the log fixes the first sequence and says whether a prefix
was purged. -/
def ScanState.startAt (st : ScanState) (targetRevision : Option TranscriptRevision)
    (sequence : Nat) : ScanState :=
  { st with
    expected := sequence
    hasRetainedPrefix := 1 < sequence
    target := if 1 < sequence ∧ targetRevision = some .empty then none else st.target }

/-- The checks on a record before it is interpreted. -/
def admitRecord (limits : TranscriptLimits) (stream : StreamKey) (st : ScanState)
    (record : DurableTranscriptRecord) : Except TranscriptError ScanState :=
  if st.recordIds.contains record.recordId then .error .recordIdentityConflict
  else do
    assertEventStreamCoordinate stream record.coordinate
    if record.sequence ≠ st.expected then
      .error (.type "The durable transcript sequence is not continuous.")
    else if limits.maxRestoreBytes - st.bytes < DurableTranscriptRecord.bytes record then
      .error (.range "The durable transcript exceeds the restore budget.")
    else .ok { st with
      recordIds := st.recordIds ++ [record.recordId]
      expected := st.expected + 1
      bytes := st.bytes + DurableTranscriptRecord.bytes record
      actualRevision := .at record.sequence }

/-- The final output a record leaves for its run. -/
def RecordData.finalOutput : RecordData → Option String
  | .assistantCompleted m => durableAssistantText m
  | .deferredCompleted d => durableAssistantText d.message
  | .deferredOpened d => d.finalOutput
  | _ => none

def ScanState.noteOutput (st : ScanState) (runId : String) (output : Option String) : ScanState :=
  match output with
  | some text => { st with finalOutputs := st.finalOutputs.set runId text }
  | none => st

/-- `deferredRunFromTerminal`. -/
def deferredRunFromTerminal (coordinate : RunCoordinate) (data : DeferredRunClosed) :
    TranscriptDeferredRun :=
  ⟨coordinate, data.inputId, data.operationId, data.status⟩

/-- A `deferred.run.closed` record against the operations and turns of its run. -/
def trackRunClosed (st : ScanState) (coordinate : RunCoordinate) (data : DeferredRunClosed) :
    Except TranscriptError ScanState :=
  let mismatch : TranscriptError :=
    .type "The durable deferred run terminal does not match its latest provider operation."
  match st.latestDeferredOrigins.get? coordinate.runId with
  | none => .error mismatch
  | some origin =>
    match st.deferredSettlements.get? origin.data.operationId with
    | none => .error mismatch
    | some settlement =>
      if origin.data.operationId ≠ data.operationId ∨
          origin.data.input.inputId ≠ data.inputId then .error mismatch
      else if settlement = .abandoned ∧ data.status ≠ .aborted then
        .error (.type
          "The durable deferred run terminal does not match its abandoned provider operation.")
      else
        match st.lastClosedTurns.get? coordinate.runId with
        | some closure =>
          if closure.coordinate = coordinate then
            .ok { st with
              closedDeferredRuns := st.closedDeferredRuns ++ [coordinate.runId]
              terminalDeferredRuns :=
                st.terminalDeferredRuns ++ [deferredRunFromTerminal coordinate data] }
          else
            .error (.type
              "The durable deferred run terminal does not match its final turn closure.")
        | none =>
          .error (.type
            "The durable deferred run terminal does not match its final turn closure.")

/-- What the record says about deferred provider operations. -/
def trackDeferred (st : ScanState) (record : DurableTranscriptRecord) :
    Except TranscriptError ScanState :=
  match record.data with
  | .deferredOpened data =>
    if st.deferredOrigins.has data.operationId then
      .error (.type
        "The durable transcript contains a repeated provider operation identifier.")
    else .ok { st with
      deferredOrigins := st.deferredOrigins.set data.operationId (record.narrow data)
      latestDeferredOrigins :=
        st.latestDeferredOrigins.set record.coordinate.runId (record.narrow data) }
  | .deferredCompleted data =>
    .ok { st with
      deferredSettlements := st.deferredSettlements.set data.operationId .completed }
  | .deferredAbandoned data =>
    .ok { st with
      deferredSettlements := st.deferredSettlements.set data.operationId .abandoned }
  | .deferredRunClosed data => trackRunClosed st record.coordinate data
  | _ => .ok st

/-- The updates between the admission of a record and its fold. -/
def trackRecord (st : ScanState) (record : DurableTranscriptRecord) :
    Except TranscriptError ScanState :=
  if st.closedDeferredRuns.contains record.coordinate.runId then
    .error (.type "The durable transcript appends a record after its deferred run terminal.")
  else
    let checkpointRevision :=
      match record.data with
      | .contextCheckpoint _ => some record.sequence
      | _ => st.checkpointRevision
    let noted := { st with checkpointRevision }.noteOutput record.coordinate.runId
      record.data.finalOutput
    trackDeferred noted record

/-- The bookkeeping after the fold: the closed turn, the previous record, the target. -/
def closeScanStep (targetRevision : Option TranscriptRevision) (closingTurn : Option OpenTurn)
    (st : ScanState) (record : DurableTranscriptRecord) : ScanState :=
  let lastClosedTurns :=
    match record.data, closingTurn with
    | .turnClosed status, some turn =>
      st.lastClosedTurns.set record.coordinate.runId
        ⟨record.coordinate, status, turn.assistantStopReason⟩
    | _, _ => st.lastClosedTurns
  { st with
    lastClosedTurns
    previousRecord := some record
    target :=
      if targetRevision = some (.at record.sequence) then
        some ⟨.at record.sequence, st.checkpointRevision, st.durableMessages⟩
      else st.target }

/-- Interpret an admitted record. -/
def applyRecord (targetRevision : Option TranscriptRevision) (st : ScanState)
    (record : DurableTranscriptRecord) : Except TranscriptError ScanState := do
  let tracked ← trackRecord st record
  let (openTurn, durableMessages) ←
    foldRecord record tracked.openTurn tracked.durableMessages tracked.previousRecord
  return closeScanStep targetRevision st.openTurn { tracked with openTurn, durableMessages } record

/-- The body of the loop, at `index` of `count` records. -/
def scanRecord (limits : TranscriptLimits) (stream : StreamKey)
    (targetRevision : Option TranscriptRevision) (count index : Nat) (st : ScanState)
    (record : DurableTranscriptRecord) : Except TranscriptError ScanState := do
  snapshotRecord limits record
  let started := if index = 0 then st.startAt targetRevision record.sequence else st
  let admitted ← admitRecord limits stream started record
  if admitted.hasRetainedPrefix ∧ index = 0 then
    match record.data with
    | .turnClosed .completed =>
      if count < 2 then
        .error (.type
          "The retained durable transcript does not begin at a completed checkpoint source.")
      else .ok { admitted with previousRecord := some record }
    | _ =>
      .error (.type
        "The retained durable transcript does not begin at a completed checkpoint source.")
  else if admitted.hasRetainedPrefix ∧ index = 1 then
    match record.data with
    | .contextCheckpoint _ => applyRecord targetRevision admitted record
    | _ =>
      .error (.type
        "The retained durable transcript source is missing its immediate checkpoint.")
  else applyRecord targetRevision admitted record

/-- The loop, from `index` on. -/
def scanRecords (limits : TranscriptLimits) (stream : StreamKey)
    (targetRevision : Option TranscriptRevision) (count : Nat) :
    Nat → ScanState → List DurableTranscriptRecord → Except TranscriptError ScanState
  | _, st, [] => .ok st
  | index, st, record :: rest => do
    let next ← scanRecord limits stream targetRevision count index st record
    scanRecords limits stream targetRevision count (index + 1) next rest

def scanCommittedTranscript (limits : TranscriptLimits) (stream : StreamKey)
    (loaded : TranscriptStoredStream) (targetRevision : Option TranscriptRevision) :
    Except TranscriptError ScanState := do
  snapshotRevision limits loaded.revision
  let st ← scanRecords limits stream targetRevision loaded.records.length 0
    (ScanState.initial targetRevision) loaded.records
  if loaded.revision ≠ st.actualRevision then
    .error (.type "The durable transcript head does not match its committed records.")
  else if targetRevision.isSome ∧ st.target.isNone then
    .error (.type "The durable transcript revision is unavailable.")
  else return st

end OpenGameAgent
