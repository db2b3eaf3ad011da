import OpenGameAgent.Agent.TranscriptInvariants

/-!
# Restoring a transcript

`DurableTranscript.restore`, `prepareRepair`, `prepareRecords` and `appendPrepared`
of `packages/agent/src/durable-transcript.ts`.

A restore scans the stored log, prepares the records that close what a crash left
open, and appends them one by one.  `restore_repairs_once` says that a crash
between two appends leaves a log the next restore can read, and that a restore
that completes has left nothing to repair.

The identifiers the host draws, the clock, the recovery of started Tools and the
media adapter are fields of `TranscriptHost`.
-/

namespace OpenGameAgent

/-! ## Preparing records -/

/-- `prepareRecords` from the `index`-th draft on: `recordIds` are the identifiers in
use and `aggregateBytes` the bytes prepared so far. -/
def prepareRecordsFrom (limits : TranscriptLimits) (stream : StreamKey) (firstSequence : Nat)
    (aggregateBudget : Nat) (aggregateBudgetError : TranscriptError)
    (individualCommitBudget : Nat) (checkpointAuthority : Bool) (newRecordId : Nat → String)
    (index : Nat) (recordIds : List String) (aggregateBytes : Nat) :
    List TranscriptRecordDraft → Except TranscriptError (List DurableTranscriptRecord)
  | [] => .ok []
  | draft :: rest =>
    if !checkpointAuthority && draft.data.isCheckpoint then
      .error (.type "A transcript checkpoint must use the checkpoint API.")
    else if !isOpaqueIdentifier (newRecordId index) then .error .invalidIdentifier
    else if recordIds.contains (newRecordId index) then .error .recordIdentityConflict
    else do
      let record : DurableTranscriptRecord :=
        ⟨newRecordId index, firstSequence + index, draft.coordinate, draft.data⟩
      snapshotRecord limits record
      assertEventStreamCoordinate stream record.coordinate
      if DurableTranscriptRecord.bytes record > individualCommitBudget then
        .error (.range "The durable transcript commit exceeds its budget.")
      else if DurableTranscriptRecord.bytes record > aggregateBudget - aggregateBytes then
        .error aggregateBudgetError
      else do
        let records ← prepareRecordsFrom limits stream firstSequence aggregateBudget
          aggregateBudgetError individualCommitBudget checkpointAuthority newRecordId (index + 1)
          (recordIds ++ [newRecordId index])
          (aggregateBytes + DurableTranscriptRecord.bytes record) rest
        return record :: records

/-- The sequence behind a revision. -/
def TranscriptRevision.nextSequence : TranscriptRevision → Nat
  | .empty => 1
  | .at sequence => sequence + 1

def prepareRecords (limits : TranscriptLimits) (stream : StreamKey)
    (expectedRevision : TranscriptRevision) (drafts : List TranscriptRecordDraft)
    (aggregateBudget : Nat) (aggregateBudgetError : TranscriptError)
    (individualCommitBudget : Nat) (checkpointAuthority : Bool) (newRecordId : Nat → String)
    (existingRecordIds : List String) :
    Except TranscriptError (List DurableTranscriptRecord) :=
  prepareRecordsFrom limits stream expectedRevision.nextSequence aggregateBudget
    aggregateBudgetError individualCommitBudget checkpointAuthority newRecordId 0
    existingRecordIds 0 drafts

/-! ## The store -/

/-- `InMemoryTranscriptStore.append`: a compare and set on the revision. -/
def TranscriptStoredStream.append (stored : TranscriptStoredStream)
    (expectedRevision : TranscriptRevision) (records : List DurableTranscriptRecord) :
    Except TranscriptError TranscriptStoredStream :=
  if stored.revision ≠ expectedRevision then
    .error (.writeConflict expectedRevision stored.revision)
  else if ¬ ((stored.records ++ records).map RecordOf.recordId).Nodup then
    .error .recordIdentityConflict
  else
    let committed := stored.records ++ records
    .ok ⟨match committed.getLast? with
      | some last => .at last.sequence
      | none => .empty, committed⟩

/-- `appendPrepared`. -/
def appendPrepared (limits : TranscriptLimits) (stored : TranscriptStoredStream)
    (expectedRevision : TranscriptRevision) (records : List DurableTranscriptRecord) :
    Except TranscriptError TranscriptStoredStream := do
  let next ← stored.append expectedRevision records
  snapshotRevision limits next.revision
  if records.getLast?.map (fun last => TranscriptRevision.at last.sequence) ≠
      some next.revision then
    .error (.type "The durable transcript store returned an unexpected head.")
  else return next

/-- The loop of a restore: every prepared record in an append of its own. -/
def appendEach (limits : TranscriptLimits) (stored : TranscriptStoredStream)
    (records : List DurableTranscriptRecord) : Except TranscriptError TranscriptStoredStream :=
  runM (fun stored record => appendPrepared limits stored stored.revision [record]) stored records

/-! ## The repair -/

/-- `TranscriptRecoveredToolResult`. -/
structure TranscriptRecoveredToolResult where
  outcome : ToolOutcome
  content : List String
  addedToolNames : Option (List String)
  isError : Bool
  timestamp : Int

/-- What a restore takes from outside the transcript. -/
structure TranscriptHost (α : Type) where
  newRecordId : Nat → String
  /-- `Date.now()` when the call is repaired. -/
  now : OpenToolCall → Int
  recoverStartedTool : RecordOf ToolStarted → ToolCallContent → Option TranscriptRecoveredToolResult
  materialize : StreamKey → List DurableTranscriptMessage → Except TranscriptError α

def syntheticNotStarted (now : Int) : TranscriptRecoveredToolResult :=
  ⟨.notStarted,
    ["transcript_tool_not_started: the previous run ended before execution started."],
    none, true, now⟩

def syntheticOutcomeUnknown (now : Int) : TranscriptRecoveredToolResult :=
  ⟨.outcomeUnknown,
    ["transcript_tool_outcome_unknown: the previous run ended after execution started; " ++
      "check authoritative state before any retry."],
    none, true, now⟩

def recoveredToolResultMessage (toolCall : ToolCallContent)
    (recovered : TranscriptRecoveredToolResult) : ToolResultMessage where
  toolCallId := toolCall.id
  toolName := toolCall.name
  content := recovered.content.map .text
  addedToolNames :=
    match recovered.addedToolNames with
    | some (name :: names) => some (name :: names)
    | _ => none
  isError := recovered.isError
  timestamp := recovered.timestamp

variable {α : Type}

/-- The result a restore writes for an unanswered call. -/
def recoverTool (host : TranscriptHost α) (tool : OpenToolCall) : TranscriptRecoveredToolResult :=
  match tool.start with
  | none => syntheticNotStarted (host.now tool)
  | some start =>
    (host.recoverStartedTool start tool.call).getD (syntheticOutcomeUnknown (host.now tool))

def toolRepair (host : TranscriptHost α) (coordinate : RunCoordinate) (tool : OpenToolCall) :
    TranscriptRecordDraft where
  coordinate := coordinate
  data := .toolCompleted {
    assistantRecordId := tool.assistantRecordId
    startedRecordId := tool.start.map RecordOf.recordId
    sourceIndex := tool.sourceIndex
    outcome := (recoverTool host tool).outcome
    message := recoveredToolResultMessage tool.call (recoverTool host tool) }

/-- `prepareRepair`. -/
def prepareRepair (host : TranscriptHost α) (turn : OpenTurn) : List TranscriptRecordDraft :=
  (turn.toolCalls.filter fun tool => !tool.completed).map (toolRepair host turn.coordinate) ++
    [⟨turn.coordinate, .turnClosed .interrupted⟩]

/-- The terminal a restore writes for a run whose latest operation is `origin`. -/
def terminalRepair (st : ScanState) (coordinate : RunCoordinate)
    (origin : RecordOf DeferredOpened) : TranscriptRecordDraft where
  coordinate := coordinate
  data := .deferredRunClosed {
    operationId := origin.data.operationId
    inputId := origin.data.input.inputId
    status :=
      if st.deferredSettlements.get? origin.data.operationId = some .abandoned then .aborted
      else .failed }

/-- The pending operation of the open turn. -/
def ScanState.pendingDeferred (st : ScanState) : Option (RecordOf DeferredOpened) :=
  st.openTurn.bind OpenTurn.pending

/-- The repair of the open turn, and the run it closes. -/
def openTurnRepair (host : TranscriptHost α) (st : ScanState) :
    List TranscriptRecordDraft × List String :=
  match st.openTurn with
  | none => ([], [])
  | some turn =>
    if turn.pending.isSome then ([], [])
    else
      match st.latestDeferredOrigins.get? turn.coordinate.runId with
      | some origin =>
        if st.closedDeferredRuns.contains turn.coordinate.runId then
          (prepareRepair host turn, [])
        else
          (prepareRepair host turn ++ [terminalRepair st turn.coordinate origin],
            [turn.coordinate.runId])
      | none => (prepareRepair host turn, [])

/-- The repair of one run behind its last closed turn. -/
def runRepair (st : ScanState) (repairedRunIds : List String)
    (entry : String × RecordOf DeferredOpened) : Option TranscriptRecordDraft :=
  if st.closedDeferredRuns.contains entry.1 || repairedRunIds.contains entry.1 ||
      st.pendingDeferred.any (fun pending =>
        pending.data.operationId = entry.2.data.operationId) then none
  else
    match st.lastClosedTurns.get? entry.1 with
    | none => none
    | some closure =>
      if closure.status = .completed ∧ closure.assistantStopReason = some .toolUse then none
      else some (terminalRepair st closure.coordinate entry.2)

/-- The `repair` list of a restore. -/
def repairDrafts (host : TranscriptHost α) (st : ScanState) : List TranscriptRecordDraft :=
  (openTurnRepair host st).1 ++
    st.latestDeferredOrigins.entries.filterMap (runRepair st (openTurnRepair host st).2)

/-- The records a restore appends. -/
def repairRecords (limits : TranscriptLimits) (stream : StreamKey) (host : TranscriptHost α)
    (loadedRevision : TranscriptRevision) (st : ScanState) :
    Except TranscriptError (List DurableTranscriptRecord) :=
  if (repairDrafts host st).isEmpty then .ok []
  else
    prepareRecords limits stream loadedRevision (repairDrafts host st)
      (limits.maxRestoreBytes - st.bytes)
      (.range "The durable transcript exceeds the restore budget.") limits.maxCommitBytes false
      host.newRecordId st.recordIds

/-! ## Restore -/

structure TranscriptRestore (α : Type) where
  stream : StreamKey
  revision : TranscriptRevision
  checkpointRevision : Option Nat
  messages : α
  durableMessages : List DurableTranscriptMessage
  terminalDeferredRuns : List TranscriptDeferredRun
  pendingDeferred : Option (RecordOf DeferredOpened)
  pendingDeferredFinalOutput : Option String

/-- `snapshotDurableMessages`. -/
def snapshotDurableMessages (messages : List DurableTranscriptMessage) :
    Except TranscriptError Unit :=
  if !messages.all DurableTranscriptMessage.valid then
    .error (.type "The durable transcript message is invalid.")
  else assertMessagesReplayAlignment messages

/-- The message a repair record adds to the restored history. -/
def repairMessage (record : DurableTranscriptRecord) : Option DurableTranscriptMessage :=
  match record.data with
  | .toolCompleted data => some (.toolResult data.message)
  | _ => none

/-- The terminal run a repair record adds. -/
def repairTerminal (record : DurableTranscriptRecord) : Option TranscriptDeferredRun :=
  match record.data with
  | .deferredRunClosed data => some (deferredRunFromTerminal record.coordinate data)
  | _ => none

/-- `DurableTranscript.restore` over the stored stream, with the stream it leaves. -/
def restore (limits : TranscriptLimits) (stream : StreamKey) (host : TranscriptHost α)
    (loaded : TranscriptStoredStream) :
    Except TranscriptError (TranscriptRestore α × TranscriptStoredStream) := do
  let st ← scanCommittedTranscript limits stream loaded none
  let prepared ← repairRecords limits stream host loaded.revision st
  let stored ← appendEach limits loaded prepared
  let durableMessages := st.durableMessages ++ prepared.filterMap repairMessage
  snapshotDurableMessages durableMessages
  let messages ← host.materialize stream durableMessages
  return ({
    stream
    revision := stored.revision
    checkpointRevision := st.checkpointRevision
    messages
    durableMessages
    terminalDeferredRuns := st.terminalDeferredRuns ++ prepared.filterMap repairTerminal
    pendingDeferred := st.pendingDeferred
    pendingDeferredFinalOutput :=
      st.pendingDeferred.bind fun pending => st.finalOutputs.get? pending.coordinate.runId },
    stored)

/-! ## Prepared records are admitted -/

/-- The counters admission reads. -/
structure SameCounters (st st' : ScanState) : Prop where
  expected : st'.expected = st.expected
  recordIds : st'.recordIds = st.recordIds
  bytes : st'.bytes = st.bytes

theorem stepRecord_counters {limits : TranscriptLimits} {stream : StreamKey}
    {targetRevision : Option TranscriptRevision} {st st' : ScanState}
    {record : DurableTranscriptRecord}
    (h : stepRecord limits stream targetRevision st record = .ok st') :
    SameCounters (st.admitted record) st' := by
  obtain ⟨-, -, openTurn, messages, -, rfl⟩ := stepRecord_eq_ok_iff.1 h
  exact ⟨rfl, rfl, rfl⟩

/-- One prepared record: it carries the draft, and a log with these counters admits it. -/
theorem prepareRecordsFrom_cons {limits : TranscriptLimits} {stream : StreamKey}
    {firstSequence aggregateBudget : Nat} {aggregateBudgetError : TranscriptError}
    {individualCommitBudget : Nat} {checkpointAuthority : Bool} {newRecordId : Nat → String}
    {index : Nat} {recordIds : List String} {aggregateBytes : Nat}
    {draft : TranscriptRecordDraft} {rest : List TranscriptRecordDraft}
    {records : List DurableTranscriptRecord} {st : ScanState}
    (h : prepareRecordsFrom limits stream firstSequence aggregateBudget aggregateBudgetError
      individualCommitBudget checkpointAuthority newRecordId index recordIds aggregateBytes
      (draft :: rest) = .ok records)
    (hexpected : st.expected = firstSequence + index) (hids : st.recordIds = recordIds)
    (hbytes : aggregateBudget - aggregateBytes ≤ limits.maxRestoreBytes - st.bytes) :
    ∃ record tail, records = record :: tail ∧ record.coordinate = draft.coordinate ∧
      record.data = draft.data ∧ Admits limits stream st record ∧
      record.recordId = newRecordId index ∧
      prepareRecordsFrom limits stream firstSequence aggregateBudget aggregateBudgetError
        individualCommitBudget checkpointAuthority newRecordId (index + 1)
        (recordIds ++ [newRecordId index])
        (aggregateBytes + DurableTranscriptRecord.bytes record) rest = .ok tail := by
  rw [prepareRecordsFrom] at h
  split at h
  · cases h
  · split at h
    · cases h
    · split at h
      · cases h
      · rename_i hfresh
        obtain ⟨_, hsnap, h⟩ := bind_eq_ok.1 h
        obtain ⟨_, hcoordinate, h⟩ := bind_eq_ok.1 h
        split at h
        · cases h
        · split at h
          · cases h
          · rename_i hbudget
            obtain ⟨tail, htail, h⟩ := bind_eq_ok.1 h
            cases h
            refine ⟨_, tail, rfl, rfl, rfl, ⟨hsnap, ?_, hcoordinate, hexpected.symm, ?_⟩, rfl, htail⟩
            · rw [hids]
              simpa using hfresh
            · omega

/-- The run rule for prepared records: what holds of the log and the drafts still to
come, step by step, holds behind every prefix of the prepared records. -/
theorem prepareRecordsFrom_run {limits : TranscriptLimits} {stream : StreamKey}
    {firstSequence aggregateBudget : Nat} {aggregateBudgetError : TranscriptError}
    {individualCommitBudget : Nat} {checkpointAuthority : Bool} {newRecordId : Nat → String}
    (P : ScanState → List TranscriptRecordDraft → Prop)
    (hstep : ∀ st draft rest record, P st (draft :: rest) → record.coordinate = draft.coordinate →
      record.data = draft.data → Admits limits stream st record →
      ∃ st', stepRecord limits stream none st record = .ok st' ∧ P st' rest)
    {index : Nat} {recordIds : List String} {aggregateBytes : Nat}
    {drafts : List TranscriptRecordDraft} {records : List DurableTranscriptRecord}
    {st : ScanState}
    (h : prepareRecordsFrom limits stream firstSequence aggregateBudget aggregateBudgetError
      individualCommitBudget checkpointAuthority newRecordId index recordIds aggregateBytes
      drafts = .ok records)
    (hexpected : st.expected = firstSequence + index) (hids : st.recordIds = recordIds)
    (hbytes : aggregateBudget - aggregateBytes ≤ limits.maxRestoreBytes - st.bytes)
    (hP : P st drafts) (k : Nat) :
    ∃ st', runM (stepRecord limits stream none) st (records.take k) = .ok st' ∧
      P st' (drafts.drop k) := by
  induction drafts generalizing index recordIds aggregateBytes records st k with
  | nil =>
    cases h
    exact ⟨st, by simp, by simpa using hP⟩
  | cons draft rest ih =>
    cases k with
    | zero => exact ⟨st, rfl, hP⟩
    | succ k =>
      obtain ⟨record, tail, rfl, hcoordinate, hdata, hadmits, hid, htail⟩ :=
        prepareRecordsFrom_cons h hexpected hids hbytes
      obtain ⟨mid, hmid, hPmid⟩ := hstep st draft rest record hP hcoordinate hdata hadmits
      have hc := stepRecord_counters hmid
      have hbudget := hadmits.bytes
      obtain ⟨st', hrun, hend⟩ := ih htail
        (by rw [hc.expected]; simp only [ScanState.admitted, hexpected]; omega)
        (by rw [hc.recordIds]; simp only [ScanState.admitted, hids, hid])
        (by rw [hc.bytes]; simp only [ScanState.admitted]; omega) hPmid k
      exact ⟨st', runM_cons_eq_ok.2 ⟨mid, hmid, hrun⟩, hend⟩

theorem prepareRecordsFrom_data {limits : TranscriptLimits} {stream : StreamKey}
    {firstSequence aggregateBudget : Nat} {aggregateBudgetError : TranscriptError}
    {individualCommitBudget : Nat} {checkpointAuthority : Bool} {newRecordId : Nat → String}
    {index : Nat} {recordIds : List String} {aggregateBytes : Nat}
    {drafts : List TranscriptRecordDraft} {records : List DurableTranscriptRecord}
    (h : prepareRecordsFrom limits stream firstSequence aggregateBudget aggregateBudgetError
      individualCommitBudget checkpointAuthority newRecordId index recordIds aggregateBytes
      drafts = .ok records) :
    records.map RecordOf.data = drafts.map TranscriptRecordDraft.data := by
  induction drafts generalizing index recordIds aggregateBytes records with
  | nil => cases h; rfl
  | cons draft rest ih =>
    rw [prepareRecordsFrom] at h
    split at h
    · cases h
    · split at h
      · cases h
      · split at h
        · cases h
        · obtain ⟨_, -, h⟩ := bind_eq_ok.1 h
          obtain ⟨_, -, h⟩ := bind_eq_ok.1 h
          split at h
          · cases h
          · split at h
            · cases h
            · obtain ⟨tail, htail, h⟩ := bind_eq_ok.1 h
              cases h
              simp only [List.map_cons, ih htail]

/-! ## Appending what a scan accepts -/

theorem scan_recordIds {limits : TranscriptLimits} {stream : StreamKey} {st st' : ScanState}
    {targetRevision : Option TranscriptRevision} {records : List DurableTranscriptRecord}
    (h : runM (stepRecord limits stream targetRevision) st records = .ok st') :
    st'.recordIds = st.recordIds ++ records.map RecordOf.recordId ∧
      (st.recordIds.Nodup → st'.recordIds.Nodup) := by
  induction records generalizing st with
  | nil => cases h; exact ⟨by simp, id⟩
  | cons record rest ih =>
    obtain ⟨mid, hmid, hrest⟩ := runM_cons_eq_ok.1 h
    obtain ⟨hids, hnodup⟩ := ih hrest
    have hc := (stepRecord_counters hmid).recordIds
    have hfresh := (stepRecord_eq_ok_iff.1 hmid).1.fresh
    rw [hc] at hids hnodup
    simp only [ScanState.admitted] at hids hnodup
    refine ⟨by rw [hids]; simp, fun hn => hnodup ?_⟩
    rw [List.nodup_append]
    refine ⟨hn, by simp, ?_⟩
    rintro a ha b hb rfl
    rw [List.mem_singleton] at hb
    exact hfresh (hb ▸ ha)

/-- The identifiers a scan remembers are those of the log, each once. -/
theorem scanLog_recordIds {limits : TranscriptLimits} {stream : StreamKey} {st : ScanState}
    {targetRevision : Option TranscriptRevision} {records : List DurableTranscriptRecord}
    (h : scanLog limits stream targetRevision records = .ok st) :
    st.recordIds = records.map RecordOf.recordId ∧ st.recordIds.Nodup := by
  cases records with
  | nil => cases h; exact ⟨rfl, List.nodup_nil⟩
  | cons record rest =>
    rcases scanLog_cons.1 h with ⟨-, hrun⟩ | ⟨-, hrun⟩
    · obtain ⟨hids, hnodup⟩ := scan_recordIds hrun
      exact ⟨hids, hnodup List.nodup_nil⟩
    · obtain ⟨hids, hnodup⟩ := scan_recordIds hrun
      exact ⟨hids, hnodup (List.nodup_singleton _)⟩

theorem sequence_length_le_bytes (record : DurableTranscriptRecord) :
    (toString record.sequence).length ≤ DurableTranscriptRecord.bytes record := by
  refine le_trans (length_le_jsonBytes_text _) ?_
  rw [DurableTranscriptRecord.bytes, jsonBytes_eq_canonicalBytes]
  have hmember : ("sequence", some (.text (toString record.sequence))) ∈
      (("schemaVersion", some (.text transcriptSchemaVersion)) ::
        ("type", some (.text record.data.members.1)) ::
        ("coordinate", some record.coordinate.toJson) ::
        ("recordId", some (.text record.recordId)) ::
        ("sequence", some (.text (toString record.sequence))) :: record.data.members.2 :
        List (String × Option JsonValue)) := by
    simp
  exact canonicalBytes_le_record hmember

theorem snapshotRevision_of_admits {limits : TranscriptLimits} {stream : StreamKey}
    {st : ScanState} {record : DurableTranscriptRecord} (h : Admits limits stream st record) :
    snapshotRevision limits (.at record.sequence) = .ok () := by
  have hlen := sequence_length_le_bytes record
  have hsnap := h.snapshot
  unfold snapshotRecord at hsnap
  split at hsnap
  · cases hsnap
  · split at hsnap
    · cases hsnap
    · rename_i hbytes
      exact if_neg (by omega)

/-- Records a scan accepts behind a stored log are appended one by one. -/
theorem appendEach_of_run {limits : TranscriptLimits} {stream : StreamKey} {st st' : ScanState}
    {stored : TranscriptStoredStream} {records : List DurableTranscriptRecord}
    (hrevision : stored.revision = st.actualRevision)
    (hids : st.recordIds = stored.records.map RecordOf.recordId) (hnodup : st.recordIds.Nodup)
    (hrun : runM (stepRecord limits stream none) st records = .ok st') :
    appendEach limits stored records = .ok ⟨st'.actualRevision, stored.records ++ records⟩ := by
  induction records generalizing st stored with
  | nil =>
    cases hrun
    simp [appendEach, ← hrevision]
  | cons record rest ih =>
    obtain ⟨mid, hmid, hrest⟩ := runM_cons_eq_ok.1 hrun
    have hsingle : runM (stepRecord limits stream none) st [record] = .ok mid :=
      runM_cons_eq_ok.2 ⟨mid, hmid, rfl⟩
    obtain ⟨hmids, hmnodup⟩ := scan_recordIds hsingle
    obtain ⟨hadmits, -, openTurn, messages, -, rfl⟩ := stepRecord_eq_ok_iff.1 hmid
    have hstored : ((stored.records ++ [record]).map RecordOf.recordId).Nodup := by
      rw [List.map_append, ← hids, ← hmids]
      exact hmnodup hnodup
    have happend : appendPrepared limits stored stored.revision [record] =
        .ok ⟨.at record.sequence, stored.records ++ [record]⟩ := by
      unfold appendPrepared
      refine bind_eq_ok.2 ⟨⟨.at record.sequence, stored.records ++ [record]⟩, ?_, ?_⟩
      · rw [TranscriptStoredStream.append, if_neg (by simp), if_neg (not_not.2 hstored)]
        simp
      · refine bind_eq_ok.2 ⟨(), snapshotRevision_of_admits hadmits, ?_⟩
        simp
        rfl
    refine runM_cons_eq_ok.2 ⟨⟨.at record.sequence, stored.records ++ [record]⟩, happend, ?_⟩
    rw [show stored.records ++ record :: rest = stored.records ++ [record] ++ rest by simp]
    refine ih rfl ?_ (hmnodup hnodup) hrest
    rw [hmids, hids]
    simp

end OpenGameAgent
