import OpenGameAgent.Agent.TranscriptRepair

/-!
# Continuing an accepted transcript

Whatever log a scan accepts, some continuation closes its open turn and its
deferred runs: only the byte and depth limits can stand in the way, and those are
the host's to choose.  `Accepted` is acceptance under some limits.

* `scanLog_mono` — more generous limits accept the same logs with the same state.
* `Sound` — what the open turn and the maps remember is well formed, so that the
  records that settle it are.
* `accepted_run_closed` — the run of any operation that is not closed yet can be
  closed by a continuation that opens no operation.
-/

namespace OpenGameAgent

/-! ## More generous limits -/

/-- Limits that admit at least as much. -/
structure TranscriptLimits.Within (small large : TranscriptLimits) : Prop where
  record : small.maxRecordBytes ≤ large.maxRecordBytes
  restore : small.maxRestoreBytes ≤ large.maxRestoreBytes
  depth : small.maxJsonDepth ≤ large.maxJsonDepth

theorem snapshotRecord_eq_ok_iff {limits : TranscriptLimits} {record : DurableTranscriptRecord} :
    snapshotRecord limits record = .ok () ↔
      jsonDepth record.toJson ≤ limits.maxJsonDepth ∧
      DurableTranscriptRecord.bytes record ≤ limits.maxRecordBytes ∧
      DurableTranscriptRecord.valid record = true ∧
      assertRecordReplayAlignment record.data = .ok () := by
  unfold snapshotRecord
  constructor
  · intro h
    split at h
    · cases h
    · rename_i hdepth
      split at h
      · cases h
      · rename_i hbytes
        split at h
        · cases h
        · rename_i hvalid
          exact ⟨by omega, by omega, by simpa using hvalid, h⟩
  · rintro ⟨hdepth, hbytes, hvalid, halign⟩
    rw [if_neg (by omega), if_neg (by omega), if_neg (by simp [hvalid])]
    exact halign

theorem Admits.mono {small large : TranscriptLimits} (hle : small.Within large)
    {stream : StreamKey} {st : ScanState} {record : DurableTranscriptRecord}
    (h : Admits small stream st record) : Admits large stream st record := by
  obtain ⟨hdepth, hbytes, hvalid, halign⟩ := snapshotRecord_eq_ok_iff.1 h.snapshot
  have hrecord := hle.record
  have hrestore := hle.restore
  have hdepths := hle.depth
  have hbudget := h.bytes
  refine ⟨snapshotRecord_eq_ok_iff.2 ⟨by omega, by omega, hvalid, halign⟩, h.fresh, h.coordinate,
    h.sequence, by omega⟩

theorem stepRecord_mono {small large : TranscriptLimits} (hle : small.Within large)
    {stream : StreamKey} {st st' : ScanState} {record : DurableTranscriptRecord}
    (h : stepRecord small stream none st record = .ok st') :
    stepRecord large stream none st record = .ok st' := by
  obtain ⟨hadmits, hrest⟩ := stepRecord_eq_ok_iff.1 h
  exact stepRecord_eq_ok_iff.2 ⟨hadmits.mono hle, hrest⟩

theorem runM_mono {small large : TranscriptLimits} (hle : small.Within large)
    {stream : StreamKey} {st st' : ScanState} {records : List DurableTranscriptRecord}
    (h : runM (stepRecord small stream none) st records = .ok st') :
    runM (stepRecord large stream none) st records = .ok st' := by
  obtain ⟨t, ht, rfl⟩ := runM_simulation (fun s t => s = t)
    (fun s t record s' hst hstep => ⟨s', hst ▸ stepRecord_mono hle hstep, rfl⟩) rfl h
  exact ht

/-- More generous limits accept the same logs. -/
theorem scanLog_mono {small large : TranscriptLimits} (hle : small.Within large)
    {stream : StreamKey} {records : List DurableTranscriptRecord} {st : ScanState}
    (h : scanLog small stream none records = .ok st) :
    scanLog large stream none records = .ok st := by
  cases records with
  | nil => exact h
  | cons record rest =>
    rw [scanLog_cons] at h ⊢
    rcases h with ⟨hfirst, hrun⟩ | ⟨hsource, hrun⟩
    · exact Or.inl ⟨hfirst, runM_mono hle hrun⟩
    · exact Or.inr ⟨⟨hsource.purged, hsource.closed, hsource.admits.mono hle,
        hsource.checkpoint⟩, runM_mono hle hrun⟩

/-! ## Accepted logs -/

/-- Some limits accept the log, and its scan ends in this state. -/
def Accepted (stream : StreamKey) (records : List DurableTranscriptRecord) (st : ScanState) :
    Prop :=
  ∃ limits, scanLog limits stream none records = .ok st

/-- A record that is well formed in itself, whatever the limits. -/
structure WellFormed (stream : StreamKey) (record : DurableTranscriptRecord) : Prop where
  valid : DurableTranscriptRecord.valid record = true
  aligned : assertRecordReplayAlignment record.data = .ok ()
  coordinate : assertEventStreamCoordinate stream record.coordinate = .ok ()

/-- A well-formed record with a new identifier and the next sequence is admitted under
limits that leave room for it. -/
theorem Accepted.admits {stream : StreamKey} {records : List DurableTranscriptRecord}
    {st : ScanState} (h : Accepted stream records st) {record : DurableTranscriptRecord}
    (hrecord : WellFormed stream record) (hfresh : record.recordId ∉ st.recordIds)
    (hsequence : record.sequence = st.expected) :
    ∃ limits, scanLog limits stream none records = .ok st ∧ Admits limits stream st record := by
  obtain ⟨limits, hscan⟩ := h
  let large : TranscriptLimits :=
    ⟨max limits.maxRecordBytes (DurableTranscriptRecord.bytes record), limits.maxCommitBytes,
      max limits.maxRestoreBytes (st.bytes + DurableTranscriptRecord.bytes record),
      max limits.maxJsonDepth (jsonDepth record.toJson)⟩
  have hle : limits.Within large :=
    ⟨Nat.le_max_left _ _, Nat.le_max_left _ _, Nat.le_max_left _ _⟩
  have hbudget : st.bytes + DurableTranscriptRecord.bytes record ≤ large.maxRestoreBytes :=
    Nat.le_max_right _ _
  refine ⟨large, scanLog_mono hle hscan, ?_, hfresh, hrecord.coordinate, hsequence, by omega⟩
  exact snapshotRecord_eq_ok_iff.2
    ⟨Nat.le_max_right _ _, Nat.le_max_right _ _, hrecord.valid, hrecord.aligned⟩

/-! ## Fresh identifiers -/

/-- The identifier of `n + 1` letters. -/
def letters (n : Nat) : String := String.ofList (List.replicate (n + 1) 'x')

theorem letters_length (n : Nat) : (letters n).length = n + 1 := by
  simp [letters, String.length_ofList]

theorem letters_opaque (n : Nat) : isOpaqueIdentifier (letters n) = true := by
  simp only [isOpaqueIdentifier, letters, String.toList_ofList, Bool.and_eq_true]
  refine ⟨by simp, ?_⟩
  rw [List.all_eq_true]
  intro c hc
  rw [List.eq_of_mem_replicate hc]
  decide

/-- There is always an identifier that a log does not use yet. -/
theorem exists_fresh_identifier (ids : List String) :
    ∃ id, isOpaqueIdentifier id = true ∧ id ∉ ids := by
  have hbound : ∃ n, ∀ id ∈ ids, id.length ≤ n := by
    induction ids with
    | nil => exact ⟨0, by simp⟩
    | cons id ids ih =>
      obtain ⟨n, hn⟩ := ih
      refine ⟨max n id.length, ?_⟩
      intro other hother
      rcases List.mem_cons.1 hother with rfl | hother
      · exact Nat.le_max_right _ _
      · exact le_trans (hn other hother) (Nat.le_max_left _ _)
  obtain ⟨n, hn⟩ := hbound
  refine ⟨letters n, letters_opaque n, ?_⟩
  intro hmem
  have hlen := hn _ hmem
  rw [letters_length] at hlen
  omega

/-! ## What the state remembers is well formed -/

/-- The assistant message a record brings, in either of its two forms. -/
def RecordData.assistantMessage : RecordData → Option AssistantMessage
  | .assistantCompleted message => some message
  | .deferredCompleted data => some data.message
  | _ => none

/-- A Tool call that a Tool record may name. -/
structure OpenToolCall.Sound (tool : OpenToolCall) : Prop where
  call : tool.call.valid = true
  assistant : isOpaqueIdentifier tool.assistantRecordId = true
  start : ∀ start, tool.start = some start → isOpaqueIdentifier start.recordId = true
  index : tool.sourceIndex ≤ maxSafeInteger

/-- An operation that a settlement or a terminal may name. -/
structure SoundOrigin (origin : RecordOf DeferredOpened) : Prop where
  recordId : isOpaqueIdentifier origin.recordId = true
  operationId : isOpaqueIdentifier origin.data.operationId = true
  inputId : isOpaqueIdentifier origin.data.input.inputId = true

structure ScanState.Sound (stream : StreamKey) (st : ScanState) : Prop where
  turn : ∀ turn, st.openTurn = some turn →
    assertEventStreamCoordinate stream turn.coordinate = .ok ()
  calls : ∀ turn, st.openTurn = some turn → ∀ tool ∈ turn.toolCalls, tool.Sound
  origins : ∀ runId origin, st.latestDeferredOrigins.get? runId = some origin → SoundOrigin origin
  closures : ∀ runId closure, st.lastClosedTurns.get? runId = some closure →
    assertEventStreamCoordinate stream closure.coordinate = .ok ()

theorem sound_of_empty {stream : StreamKey} {st : ScanState} (hturn : st.openTurn = none)
    (hlatest : st.latestDeferredOrigins = .empty) (hclosed : st.lastClosedTurns = .empty) :
    st.Sound stream where
  turn := by rw [hturn]; rintro turn ⟨⟩
  calls := by rw [hturn]; rintro turn ⟨⟩
  origins := by rw [hlatest]; rintro runId origin ⟨⟩
  closures := by rw [hclosed]; rintro runId closure ⟨⟩

theorem openToolCallsFrom_sound {recordId : String} (hid : isOpaqueIdentifier recordId = true)
    (index : Nat) (content : List AssistantContent)
    (hvalid : content.all AssistantContent.valid = true)
    (hbound : index + content.length ≤ maxSafeInteger) :
    ∀ tool ∈ openToolCallsFrom recordId index content, tool.Sound := by
  induction content generalizing index with
  | nil => intro tool h; simp [openToolCallsFrom] at h
  | cons part rest ih =>
    rw [List.all_cons, Bool.and_eq_true] at hvalid
    rw [List.length_cons] at hbound
    have hrest := ih (index + 1) hvalid.2 (by omega)
    intro tool h
    cases part with
    | toolCall call =>
      rw [openToolCallsFrom, List.mem_cons] at h
      rcases h with rfl | h
      · exact ⟨hvalid.1, hid, by simp, by dsimp only; omega⟩
      · exact hrest tool h
    | text _ => exact hrest tool h
    | thinking _ => exact hrest tool h

theorem openToolCalls_sound {recordId : String} {message : AssistantMessage}
    (hid : isOpaqueIdentifier recordId = true) (hvalid : message.valid = true)
    (hbound : message.content.length ≤ maxSafeInteger) :
    ∀ tool ∈ openToolCalls recordId message, tool.Sound := by
  rw [AssistantMessage.valid, Bool.and_eq_true] at hvalid
  exact openToolCallsFrom_sound hid 0 message.content hvalid.1 (by omega)

theorem mem_set_sound {calls : List OpenToolCall} {index : Nat} {tool tool' : OpenToolCall}
    (hcalls : ∀ tool ∈ calls, tool.Sound) (hget : calls[index]? = some tool)
    (htool : tool.Sound → tool'.Sound) : ∀ tool ∈ calls.set index tool', tool.Sound := by
  intro other hmem
  rcases List.mem_or_eq_of_mem_set hmem with h | rfl
  · exact hcalls other h
  · exact htool (hcalls tool (List.mem_of_getElem? hget))

theorem valid_parts {record : DurableTranscriptRecord}
    (h : DurableTranscriptRecord.valid record = true) :
    record.coordinate.valid = true ∧ isOpaqueIdentifier record.recordId = true ∧
      record.data.valid = true := by
  simpa only [DurableTranscriptRecord.valid, Bool.and_eq_true, and_assoc] using h

/-- The calls a turn record leaves are sound if those before it were. -/
theorem foldTurnRecord_sound {turn turn' : OpenTurn} {record : DurableTranscriptRecord}
    (hcalls : ∀ tool ∈ turn.toolCalls, tool.Sound)
    (hvalid : DurableTranscriptRecord.valid record = true)
    (hbound : ∀ message, record.data.assistantMessage = some message →
      message.content.length ≤ maxSafeInteger)
    (h : foldTurnRecord turn record = .ok turn') : ∀ tool ∈ turn'.toolCalls, tool.Sound := by
  obtain ⟨-, hid, hdata⟩ := valid_parts hvalid
  obtain ⟨recordId, sequence, coordinate, data⟩ := record
  cases data with
  | userCompleted message =>
    obtain ⟨-, -, rfl⟩ := foldUserMessage_eq_ok_iff.1 h
    exact hcalls
  | assistantCompleted message =>
    obtain ⟨-, -, rfl⟩ := foldAssistantMessage_eq_ok_iff.1 h
    exact openToolCalls_sound hid hdata (hbound message rfl)
  | toolStarted data =>
    obtain ⟨index, tool, hnames, -, -, rfl⟩ := foldToolStarted_eq_ok_iff.1 h
    refine mem_set_sound hcalls hnames.at_index fun hs => ⟨hs.call, hs.assistant, ?_, hs.index⟩
    rintro start ⟨⟩
    exact hid
  | toolCompleted data =>
    obtain ⟨index, tool, -, hnames, -, -, rfl⟩ := foldToolCompleted_eq_ok_iff.1 h
    exact mem_set_sound hcalls hnames.at_index fun hs => ⟨hs.call, hs.assistant, hs.start, hs.index⟩
  | deferredOpened data =>
    obtain ⟨-, -, rfl⟩ := foldDeferredOpened_eq_ok_iff.1 h
    exact hcalls
  | deferredCompleted data =>
    obtain ⟨opened, -, -, -, -, -, -, rfl⟩ := foldDeferredCompleted_eq_ok_iff.1 h
    have hmessage : data.message.valid = true := by
      simp only [RecordData.valid, Bool.and_eq_true] at hdata
      exact hdata.2
    exact openToolCalls_sound hid hmessage (hbound data.message rfl)
  | deferredAbandoned data =>
    obtain ⟨opened, -, -, -, rfl⟩ := foldDeferredAbandoned_eq_ok_iff.1 h
    exact hcalls
  | turnClosed _ => cases h; exact hcalls
  | contextCheckpoint _ => cases h; exact hcalls
  | deferredRunClosed _ => cases h; exact hcalls

theorem openedOperation_sound {record : DurableTranscriptRecord}
    (hvalid : DurableTranscriptRecord.valid record = true) {opened : RecordOf DeferredOpened}
    (h : record.openedOperation = some opened) : SoundOrigin opened := by
  obtain ⟨-, hid, hdata⟩ := valid_parts hvalid
  obtain ⟨data, heq, rfl⟩ := openedOperation_eq_some.1 h
  rw [heq] at hdata
  simp only [RecordData.valid, DeferredInput.valid, Bool.and_eq_true] at hdata
  exact ⟨hid, hdata.1.1.1.1, hdata.1.1.1.2.1⟩

/-- A step keeps the state sound, if the record's source indices are safe integers. -/
theorem ScanState.Sound.step {limits : TranscriptLimits} {stream : StreamKey} {st st' : ScanState}
    {record : DurableTranscriptRecord} (h : st.Sound stream)
    (hbound : ∀ message, record.data.assistantMessage = some message →
      message.content.length ≤ maxSafeInteger)
    (hstep : stepRecord limits stream none st record = .ok st') : st'.Sound stream := by
  obtain ⟨hadmits, htracks, openTurn, messages, hfold, rfl⟩ := stepRecord_eq_ok_iff.1 hstep
  obtain ⟨-, -, hvalid, -⟩ := snapshotRecord_eq_ok_iff.1 hadmits.snapshot
  have horigins : ∀ runId origin, ((st.admitted record).advance none record openTurn
      messages).latestDeferredOrigins.get? runId = some origin → SoundOrigin origin := by
    intro runId origin horigin
    rw [advance_latestDeferredOrigins] at horigin
    split at horigin
    · rename_i opened hopened
      rw [OrderedMap.get?_set] at horigin
      split at horigin
      · cases horigin
        exact openedOperation_sound hvalid hopened
      · exact h.origins runId origin horigin
    · exact h.origins runId origin horigin
  by_cases hin : record.data.inTurn = true
  · obtain ⟨hcoordinate, turn, hturn, rfl, -⟩ := (foldRecord_inTurn hin).1 hfold
    obtain ⟨-, hlast⟩ := @inTurn_keeps none (st.admitted record) record (some turn) messages hin
    have hstepped := foldTurnRecord_spec hturn
    refine ⟨?_, ?_, horigins, by rw [hlast]; exact h.closures⟩
    · rintro _ ⟨⟩
      rw [hstepped.coordinate, hcoordinate]
      exact hadmits.coordinate
    · rintro _ ⟨⟩
      refine foldTurnRecord_sound ?_ hvalid hbound hturn
      cases hopen : st.openTurn with
      | none => intro tool hmem; cases hmem
      | some turn₁ => exact h.calls turn₁ hopen
  · have hnone : openTurn = none := by
      cases folded_of_ok hfold with
      | turn turn hturn => exact absurd hturn hin
      | closed => rfl
      | checkpoint => rfl
      | runClosed => rfl
    subst hnone
    refine ⟨by rintro turn ⟨⟩, by rintro turn ⟨⟩, horigins, ?_⟩
    intro runId closure hclosure
    rw [advance_lastClosedTurns] at hclosure
    split at hclosure
    · rw [OrderedMap.get?_set] at hclosure
      split at hclosure
      · cases hclosure
        exact hadmits.coordinate
      · exact h.closures runId closure hclosure
    · exact h.closures runId closure hclosure

/-- The parts of an admitted assistant message are counted by its bytes. -/
theorem content_length_le_bytes {record : DurableTranscriptRecord} {message : AssistantMessage}
    (h : record.data.assistantMessage = some message) :
    message.content.length ≤ DurableTranscriptRecord.bytes record := by
  have hcontent : ("content", some (.array (message.content.map AssistantContent.toJson))) ∈
      [("role", some (.text "assistant")),
        ("content", some (.array (message.content.map AssistantContent.toJson))),
        ("api", some (.text message.api)), ("provider", some (.text message.provider)),
        ("model", some (.text message.model)),
        ("providerReplay", message.providerReplay.map ProviderReplay.toJson),
        ("stopReason", some (.text message.stopReason.text)),
        ("timestamp", some (.int message.timestamp))] := by
    simp
  have hmessage : message.content.length ≤ canonicalBytes message.toJson := by
    refine le_trans ?_ (canonicalBytes_le_record hcontent)
    have := length_le_canonicalBytes_array (message.content.map AssistantContent.toJson)
    rwa [List.length_map] at this
  have hmember : ("message", some message.toJson) ∈ record.data.members.2 := by
    unfold RecordData.assistantMessage at h
    split at h
    · rename_i data hdata
      cases h
      rw [hdata]
      exact List.mem_cons_self
    · rename_i data hdata
      cases h
      rw [hdata]
      simp [RecordData.members]
    · cases h
  refine le_trans hmessage ?_
  rw [DurableTranscriptRecord.bytes, jsonBytes_eq_canonicalBytes]
  have hrecord : ("message", some message.toJson) ∈
      (("schemaVersion", some (.text transcriptSchemaVersion)) ::
        ("type", some (.text record.data.members.1)) ::
        ("coordinate", some record.coordinate.toJson) ::
        ("recordId", some (.text record.recordId)) ::
        ("sequence", some (.text (toString record.sequence))) :: record.data.members.2 :
        List (String × Option JsonValue)) := by
    simp [hmember]
  exact canonicalBytes_le_record hrecord

/-- A scan under safe limits ends in a sound state. -/
theorem sound_scan {limits : TranscriptLimits} (hlimits : limits.maxRecordBytes ≤ maxSafeInteger)
    {stream : StreamKey} {records : List DurableTranscriptRecord} {st : ScanState}
    (h : scanLog limits stream none records = .ok st) : st.Sound stream := by
  refine scanLog_invariant (ScanState.Sound stream) ?_ ?_ ?_ ?_ h
  · exact sound_of_empty rfl rfl rfl
  · intro sequence
    exact sound_of_empty rfl rfl rfl
  · intro source _ _
    exact sound_of_empty rfl rfl rfl
  · intro s record s' hs hstep
    refine hs.step ?_ hstep
    intro message hmessage
    obtain ⟨hadmits, -⟩ := stepRecord_eq_ok_iff.1 hstep
    obtain ⟨-, hbytes, -, -⟩ := snapshotRecord_eq_ok_iff.1 hadmits.snapshot
    have hlength := content_length_le_bytes hmessage
    omega

/-! ## Settling a log -/

/-- A draft that becomes a well-formed record under any fresh identifier. -/
structure SoundDraft (stream : StreamKey) (draft : TranscriptRecordDraft) : Prop where
  coordinate : assertEventStreamCoordinate stream draft.coordinate = .ok ()
  valid : draft.data.valid = true
  aligned : assertRecordReplayAlignment draft.data = .ok ()

/-- A host that recovers no Tool: every started call has an unknown outcome. -/
def quietHost : TranscriptHost Unit where
  newRecordId := letters
  now := fun _ => 0
  recoverStartedTool := fun _ _ => none
  materialize := fun _ _ => .ok ()

theorem coordinate_valid {stream : StreamKey} {coordinate : RunCoordinate}
    (h : assertEventStreamCoordinate stream coordinate = .ok ()) : coordinate.valid = true := by
  unfold assertEventStreamCoordinate at h
  split at h
  · rename_i hall
    simp only [Bool.and_eq_true] at hall
    exact hall.1.1.2
  · cases h

theorem recoverTool_quiet (tool : OpenToolCall) :
    (recoverTool quietHost tool).addedToolNames = none ∧
      (recoverTool quietHost tool).timestamp = 0 := by
  unfold recoverTool
  cases tool.start <;> exact ⟨rfl, rfl⟩

theorem toolRepair_sound {stream : StreamKey} {coordinate : RunCoordinate} {tool : OpenToolCall}
    (hcoordinate : assertEventStreamCoordinate stream coordinate = .ok ()) (htool : tool.Sound) :
    SoundDraft stream (toolRepair quietHost coordinate tool) := by
  refine ⟨hcoordinate, ?_, rfl⟩
  have hcall := htool.call
  rw [ToolCallContent.valid, Bool.and_eq_true, Bool.and_eq_true] at hcall
  obtain ⟨hnames, htime⟩ := recoverTool_quiet tool
  have hmessage : (recoveredToolResultMessage tool.call (recoverTool quietHost tool)).valid =
      true := by
    simp only [ToolResultMessage.valid, recoveredToolResultMessage, hcall.1.1, hcall.1.2, hnames,
      htime, Bool.true_and, Bool.and_eq_true]
    refine ⟨⟨?_, rfl⟩, by decide⟩
    rw [List.all_map, List.all_eq_true]
    intro text _
    rfl
  have hstart : (tool.start.map RecordOf.recordId).all isOpaqueIdentifier = true := by
    cases hs : tool.start with
    | none => rfl
    | some start => simpa using htool.start start hs
  have hindex : decide (tool.sourceIndex ≤ maxSafeInteger) = true := decide_eq_true htool.index
  simp only [toolRepair, RecordData.valid, htool.assistant, hstart, hmessage, hindex, Bool.and_self]

theorem terminalRepair_sound {stream : StreamKey} {st : ScanState} {coordinate : RunCoordinate}
    {origin : RecordOf DeferredOpened}
    (hcoordinate : assertEventStreamCoordinate stream coordinate = .ok ())
    (horigin : SoundOrigin origin) : SoundDraft stream (terminalRepair st coordinate origin) := by
  refine ⟨hcoordinate, ?_, rfl⟩
  simp only [terminalRepair, RecordData.valid, horigin.operationId, horigin.inputId, Bool.and_self]

/-- Every draft of a repair over a sound state is sound. -/
theorem repairDrafts_sound {stream : StreamKey} {st : ScanState} (hcoherent : st.Coherent)
    (hpending : st.pendingDeferred = none) (h : st.Sound stream) :
    ∀ draft ∈ repairDrafts quietHost st, SoundDraft stream draft := by
  have hruns : ∀ repaired, ∀ draft ∈
      st.latestDeferredOrigins.entries.filterMap (runRepair st repaired),
      SoundDraft stream draft := by
    intro repaired draft hmem
    obtain ⟨⟨runId, origin⟩, hentry, hrepair⟩ := List.mem_filterMap.1 hmem
    have horigin := h.origins runId origin (OrderedMap.get?_eq_some_iff.2 hentry)
    unfold runRepair at hrepair
    split at hrepair
    · cases hrepair
    · split at hrepair
      · cases hrepair
      · rename_i closure hclosure
        split at hrepair
        · cases hrepair
        · cases hrepair
          exact terminalRepair_sound (h.closures runId closure hclosure) horigin
  intro draft hmem
  cases hturn : st.openTurn with
  | none =>
    rw [repairDrafts_closed quietHost hturn] at hmem
    exact hruns [] draft hmem
  | some turn =>
    have hcoordinate := h.turn turn hturn
    rw [repairDrafts_open quietHost hcoherent hturn (pending_of_settled hpending hturn),
      prepareRepair, List.append_assoc, List.mem_append, List.mem_append] at hmem
    rcases hmem with hmem | hmem | hmem
    · obtain ⟨tool, htool, rfl⟩ := List.mem_map.1 hmem
      exact toolRepair_sound hcoordinate (h.calls turn hturn tool (List.mem_filter.1 htool).1)
    · rw [List.mem_singleton] at hmem
      subst hmem
      exact ⟨hcoordinate, rfl, rfl⟩
    · unfold runRepairs at hmem
      split at hmem
      · rename_i origin horigin
        rcases List.mem_cons.1 hmem with rfl | hmem
        · exact terminalRepair_sound hcoordinate (h.origins _ origin horigin)
        · exact hruns _ draft hmem
      · exact hruns _ draft hmem

/-- The record of a sound draft that an accepted log takes next. -/
theorem Accepted.nextRecord {stream : StreamKey} {records : List DurableTranscriptRecord}
    {st : ScanState} (h : Accepted stream records st) {draft : TranscriptRecordDraft}
    (hdraft : SoundDraft stream draft) :
    ∃ limits record, scanLog limits stream none records = .ok st ∧
      Admits limits stream st record ∧ record.coordinate = draft.coordinate ∧
      record.data = draft.data := by
  obtain ⟨id, hid, hfresh⟩ := exists_fresh_identifier st.recordIds
  have hrecord : WellFormed stream ⟨id, st.expected, draft.coordinate, draft.data⟩ := by
    refine ⟨?_, hdraft.aligned, hdraft.coordinate⟩
    simp only [DurableTranscriptRecord.valid, coordinate_valid hdraft.coordinate, hid, hdraft.valid,
      Bool.and_self]
  obtain ⟨limits, hscan, hadmits⟩ := h.admits hrecord hfresh rfl
  exact ⟨limits, _, hscan, hadmits, rfl, rfl⟩

theorem Accepted.append {limits : TranscriptLimits} {stream : StreamKey}
    {records : List DurableTranscriptRecord} (hne : records ≠ []) {st st' : ScanState}
    {record : DurableTranscriptRecord} (hscan : scanLog limits stream none records = .ok st)
    (hstep : stepRecord limits stream none st record = .ok st') :
    Accepted stream (records ++ [record]) st' :=
  ⟨limits, (scanLog_append hne hscan).2 (runM_cons_eq_ok.2 ⟨st', hstep, rfl⟩)⟩

/-- A log whose plan has sound drafts can carry the plan out. -/
theorem Accepted.settle {stream : StreamKey} {drafts : List TranscriptRecordDraft}
    {records : List DurableTranscriptRecord} (hne : records ≠ []) {st : ScanState}
    (h : Accepted stream records st) (hleft : RepairsLeft quietHost st drafts)
    (hsound : st.Sound stream) (hdrafts : ∀ draft ∈ drafts, SoundDraft stream draft)
    (hrepair : ∀ draft ∈ drafts, draft.data.isRepair = true) :
    ∃ more st', Accepted stream (records ++ more) st' ∧ RepairsLeft quietHost st' [] ∧
      st'.Sound stream ∧ ∀ record ∈ more, record.data.isRepair = true := by
  induction drafts generalizing records st with
  | nil => exact ⟨[], st, by simpa using h, hleft, hsound, by simp⟩
  | cons draft rest ih =>
    obtain ⟨limits, record, hscan, hadmits, hcoordinate, hdata⟩ :=
      h.nextRecord (hdrafts draft List.mem_cons_self)
    obtain ⟨mid, hmid, hmidLeft⟩ := hleft.step hcoordinate hdata hadmits
    have hkind : record.data.isRepair = true := by
      rw [hdata]
      exact hrepair draft List.mem_cons_self
    have hmessage : ∀ message, record.data.assistantMessage = some message →
        message.content.length ≤ maxSafeInteger := by
      intro message hm
      cases hd : record.data with
      | assistantCompleted _ => rw [hd] at hkind; cases hkind
      | deferredCompleted _ => rw [hd] at hkind; cases hkind
      | _ => rw [hd] at hm; cases hm
    obtain ⟨more, st', haccepted, hdone, hsound', hmore⟩ :=
      ih (by simp) (Accepted.append hne hscan hmid) hmidLeft (hsound.step hmessage hmid)
        (fun d hd => hdrafts d (List.mem_cons_of_mem _ hd))
        (fun d hd => hrepair d (List.mem_cons_of_mem _ hd))
    refine ⟨record :: more, st', ?_, hdone, hsound', ?_⟩
    · rwa [List.append_assoc] at haccepted
    · intro r hr
      rcases List.mem_cons.1 hr with rfl | hr
      · exact hkind
      · exact hmore r hr

/-! ## Closing a run -/

/-- The record is the terminal of the run. -/
def DurableTranscriptRecord.ClosesRun (record : DurableTranscriptRecord) (runId : String) : Prop :=
  record.coordinate.runId = runId ∧ ∃ data, record.data = .deferredRunClosed data

/-- The record opens an operation of the run. -/
def DurableTranscriptRecord.OpensFor (record : DurableTranscriptRecord) (runId : String) : Prop :=
  record.coordinate.runId = runId ∧ ∃ data, record.data = .deferredOpened data

theorem isRepair_not_opens {record : DurableTranscriptRecord}
    (h : record.data.isRepair = true) (runId : String) : ¬ record.OpensFor runId := by
  rintro ⟨-, data, hdata⟩
  rw [hdata] at h
  cases h

/-- Every run is closed by a record. -/
theorem mem_closedDeferredRuns_runM {limits : TranscriptLimits} {stream : StreamKey}
    {st st' : ScanState} {records : List DurableTranscriptRecord} {runId : String}
    (hrun : runM (stepRecord limits stream none) st records = .ok st') :
    runId ∈ st'.closedDeferredRuns ↔
      runId ∈ st.closedDeferredRuns ∨ ∃ record ∈ records, record.ClosesRun runId := by
  induction records generalizing st with
  | nil => cases hrun; simp
  | cons record rest ih =>
    obtain ⟨mid, hmid, hrest⟩ := runM_cons_eq_ok.1 hrun
    obtain ⟨-, -, openTurn, messages, -, rfl⟩ := stepRecord_eq_ok_iff.1 hmid
    have hhead : runId ∈ ((st.admitted record).advance none record openTurn
        messages).closedDeferredRuns ↔
          runId ∈ st.closedDeferredRuns ∨ record.ClosesRun runId := by
      rw [advance_closedDeferredRuns, DurableTranscriptRecord.ClosesRun]
      split
      · rename_i data hdata
        simp [hdata, eq_comm]
      · rename_i hdata
        simp only [admit_closedDeferredRuns]
        constructor
        · exact Or.inl
        · rintro (h | ⟨-, data, hd⟩)
          · exact h
          · exact absurd hd (hdata data)
    rw [ih hrest, hhead, List.exists_mem_cons_iff, or_assoc]

/-- A run has an operation if a record opened one. -/
theorem has_latestDeferredOrigins_runM {limits : TranscriptLimits} {stream : StreamKey}
    {st st' : ScanState} {records : List DurableTranscriptRecord} {runId : String}
    (hrun : runM (stepRecord limits stream none) st records = .ok st') :
    st'.latestDeferredOrigins.has runId = true ↔
      st.latestDeferredOrigins.has runId = true ∨ ∃ record ∈ records, record.OpensFor runId := by
  induction records generalizing st with
  | nil => cases hrun; simp
  | cons record rest ih =>
    obtain ⟨mid, hmid, hrest⟩ := runM_cons_eq_ok.1 hrun
    obtain ⟨-, -, openTurn, messages, -, rfl⟩ := stepRecord_eq_ok_iff.1 hmid
    have hhead : ((st.admitted record).advance none record openTurn
        messages).latestDeferredOrigins.has runId = true ↔
          st.latestDeferredOrigins.has runId = true ∨ record.OpensFor runId := by
      rw [advance_latestDeferredOrigins, DurableTranscriptRecord.OpensFor]
      split
      · rename_i opened hopened
        obtain ⟨data, hdata, -⟩ := openedOperation_eq_some.1 hopened
        simp only [OrderedMap.has_iff, OrderedMap.get?_set, admit_latestDeferredOrigins]
        by_cases hr : record.coordinate.runId = runId <;> simp [hr, hdata]
      · rename_i hopened
        simp only [admit_latestDeferredOrigins]
        constructor
        · exact Or.inl
        · rintro (h | ⟨-, data, hd⟩)
          · exact h
          · rw [openedOperation_eq_some.2 ⟨data, hd, rfl⟩] at hopened
            cases hopened
    rw [ih hrest, hhead, List.exists_mem_cons_iff, or_assoc]

/-- The latest operation of a run comes from a record. -/
theorem latestOrigin_of_runM {limits : TranscriptLimits} {stream : StreamKey} {st st' : ScanState}
    {records : List DurableTranscriptRecord} {runId : String}
    (hrun : runM (stepRecord limits stream none) st records = .ok st')
    (hnone : ∀ record ∈ records, ¬ record.OpensFor runId) :
    st'.latestDeferredOrigins.get? runId = st.latestDeferredOrigins.get? runId := by
  induction records generalizing st with
  | nil => cases hrun; rfl
  | cons record rest ih =>
    obtain ⟨mid, hmid, hrest⟩ := runM_cons_eq_ok.1 hrun
    rw [ih hrest fun r hr => hnone r (List.mem_cons_of_mem _ hr)]
    obtain ⟨-, -, openTurn, messages, -, rfl⟩ := stepRecord_eq_ok_iff.1 hmid
    rw [advance_latestDeferredOrigins]
    split
    · rename_i opened hopened
      obtain ⟨data, hdata, rfl⟩ := openedOperation_eq_some.1 hopened
      have hne : record.coordinate.runId ≠ runId :=
        fun hc => hnone record List.mem_cons_self ⟨hc, data, hdata⟩
      rw [OrderedMap.get?_set_of_ne _ hne]
      rfl
    · rfl

/-- One choice of limits reads the shorter log and steps on to the longer one. -/
theorem Accepted.run {stream : StreamKey} {records more : List DurableTranscriptRecord}
    (hne : records ≠ []) {st st' : ScanState} (h : Accepted stream records st)
    (h' : Accepted stream (records ++ more) st') :
    ∃ limits, scanLog limits stream none records = .ok st ∧
      runM (stepRecord limits stream none) st more = .ok st' := by
  obtain ⟨a, ha⟩ := h
  obtain ⟨b, hb⟩ := h'
  let large : TranscriptLimits :=
    ⟨max a.maxRecordBytes b.maxRecordBytes, a.maxCommitBytes,
      max a.maxRestoreBytes b.maxRestoreBytes, max a.maxJsonDepth b.maxJsonDepth⟩
  have hle : a.Within large := ⟨Nat.le_max_left _ _, Nat.le_max_left _ _, Nat.le_max_left _ _⟩
  have hle' : b.Within large :=
    ⟨Nat.le_max_right _ _, Nat.le_max_right _ _, Nat.le_max_right _ _⟩
  have hscan := scanLog_mono hle ha
  have hscan' := scanLog_mono hle' hb
  exact ⟨large, hscan, (scanLog_append hne hscan).1 hscan'⟩

/-- A pending operation can be abandoned. -/
theorem Accepted.abandon {stream : StreamKey} {records : List DurableTranscriptRecord}
    (hne : records ≠ []) {st : ScanState} (h : Accepted stream records st)
    (hcoherent : st.Coherent) (hsound : st.Sound stream) :
    ∃ more st', Accepted stream (records ++ more) st' ∧ st'.Coherent ∧ st'.Sound stream ∧
      st'.pendingDeferred = none ∧ ∀ record ∈ more, ∀ runId,
        ¬ record.OpensFor runId ∧ ¬ record.ClosesRun runId := by
  cases hpending : st.pendingDeferred with
  | none => exact ⟨[], st, by simpa using h, hcoherent, hsound, hpending, by simp⟩
  | some origin =>
    obtain ⟨turn, hturn, hwaiting⟩ := Option.bind_eq_some_iff.1 hpending
    have horigin := hsound.origins _ origin (hcoherent.pending_latest turn origin hturn hwaiting)
    have hdraft : SoundDraft stream ⟨turn.coordinate,
        .deferredAbandoned ⟨origin.data.operationId, origin.recordId⟩⟩ := by
      refine ⟨hsound.turn turn hturn, ?_, rfl⟩
      simp only [RecordData.valid, horigin.operationId, horigin.recordId, Bool.and_self]
    obtain ⟨limits, record, hscan, hadmits, hcoordinate, hdata⟩ := h.nextRecord hdraft
    have hfold : foldTurnRecord turn record =
        .ok { turn with deferred := some ⟨origin, .abandoned⟩ } := by
      rw [foldTurnRecord, hdata]
      exact foldDeferredAbandoned_eq_ok_iff.2 ⟨origin, hwaiting, rfl, rfl, rfl⟩
    have htracks : Tracks st record := by
      refine ⟨?_, by rw [DeferredInOrder, hdata]; trivial⟩
      rw [hcoordinate]
      exact hcoherent.open_run turn hturn
    have hrecord : foldRecord record st.openTurn st.durableMessages st.previousRecord =
        .ok (some { turn with deferred := some ⟨origin, .abandoned⟩ },
          st.durableMessages ++ record.data.appendedMessage.toList) := by
      refine (foldRecord_inTurn (by rw [hdata]; rfl)).2 ⟨?_, _, ?_, rfl, rfl⟩ <;> rw [hturn]
      · exact hcoordinate.symm
      · exact hfold
    have hstep : stepRecord limits stream none st record = .ok _ :=
      stepRecord_of hadmits htracks hrecord
    refine ⟨[record], _, Accepted.append hne hscan hstep, hcoherent.step hstep,
      hsound.step ?_ hstep, rfl, ?_⟩
    · intro message hm
      rw [hdata] at hm
      cases hm
    · intro r hr runId
      rw [List.mem_singleton] at hr
      subst hr
      constructor
      · rintro ⟨-, data, hd⟩
        rw [hdata] at hd
        cases hd
      · rintro ⟨-, data, hd⟩
        rw [hdata] at hd
        cases hd

/-- Every run with an operation can be closed by a continuation that opens none. -/
theorem accepted_run_closed {stream : StreamKey} {records : List DurableTranscriptRecord}
    (hne : records ≠ []) {st : ScanState} (h : Accepted stream records st)
    (hcoherent : st.Coherent) (hsound : st.Sound stream) {runId : String}
    {origin : RecordOf DeferredOpened}
    (horigin : st.latestDeferredOrigins.get? runId = some origin)
    (hunclosed : runId ∉ st.closedDeferredRuns) :
    ∃ more st', Accepted stream (records ++ more) st' ∧
      (∃ record ∈ more, record.ClosesRun runId) ∧
      ∀ record ∈ more, ¬ record.OpensFor runId := by
  obtain ⟨first, st₁, h₁, hcoherent₁, hsound₁, hpending₁, hfirst⟩ :=
    h.abandon hne hcoherent hsound
  have hne₁ : records ++ first ≠ [] := by simp [hne]
  obtain ⟨second, st₂, h₂, hleft₂, hsound₂, hsecond⟩ := h₁.settle hne₁
    ⟨hcoherent₁, hpending₁, List.Perm.refl _, fun _ => rfl⟩ hsound₁
    (repairDrafts_sound hcoherent₁ hpending₁ hsound₁) (repairDrafts_isRepair quietHost st₁)
  have hopens : ∀ record ∈ first ++ second, ¬ record.OpensFor runId := by
    intro record hmem
    rcases List.mem_append.1 hmem with hmem | hmem
    · exact (hfirst record hmem runId).1
    · exact isRepair_not_opens (hsecond record hmem) runId
  rw [List.append_assoc] at h₂
  obtain ⟨limits, hscan, hrun⟩ := h.run hne h₂
  obtain ⟨hopen, hdone⟩ := hleft₂.done
  have horigin₂ : st₂.latestDeferredOrigins.get? runId = some origin := by
    rw [latestOrigin_of_runM hrun hopens]
    exact horigin
  by_cases hclosed : runId ∈ st₂.closedDeferredRuns
  · rcases (mem_closedDeferredRuns_runM hrun).1 hclosed with hc | hc
    · exact absurd hc hunclosed
    · exact ⟨first ++ second, st₂, h₂, hc, hopens⟩
  · -- The plan leaves a run alone whose last turn ended in Tool use: close it by hand.
    obtain ⟨closure, hclosure, -, -⟩ :=
      (runs_closed_of_done hleft₂.coherent hopen hdone horigin₂).resolve_left hclosed
    obtain ⟨data, hdata, hclosable⟩ :=
      runClosable_terminal hleft₂.coherent hopen horigin₂ hclosure
    obtain ⟨limits₃, record, hscan₃, hadmits, hcoordinate, hrecord⟩ := h₂.nextRecord
      (terminalRepair_sound (hsound₂.closures runId closure hclosure)
        (hsound₂.origins runId origin horigin₂))
    rw [hdata] at hrecord
    have hcloses : record.ClosesRun runId :=
      ⟨by rw [hcoordinate]; exact hleft₂.coherent.closure_run runId closure hclosure, data, hrecord⟩
    have htracks : Tracks st₂ record := by
      refine ⟨?_, ?_⟩
      · rw [hcloses.1]
        exact hclosed
      · rw [DeferredInOrder, hrecord, hcoordinate]
        exact hclosable
    have hstep : stepRecord limits₃ stream none st₂ record = .ok _ :=
      stepRecord_of hadmits htracks ((foldRecord_deferredRunClosed hrecord).2 ⟨hopen, rfl, rfl⟩)
    have h₃ := Accepted.append (by simp [hne]) hscan₃ hstep
    refine ⟨first ++ second ++ [record], _, by rwa [List.append_assoc] at h₃,
      ⟨record, by simp, hcloses⟩, ?_⟩
    intro r hr
    rcases List.mem_append.1 hr with hr | hr
    · exact hopens r hr
    · rw [List.mem_singleton] at hr
      subst hr
      exact isRepair_not_opens (by rw [hrecord]; rfl) runId

end OpenGameAgent
