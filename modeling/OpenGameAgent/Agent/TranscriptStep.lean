import OpenGameAgent.Agent.TranscriptScan

/-!
# What one record does to a scan

`scanRecord` succeeds exactly when the record is admitted, its run is still open,
its provider operation is in order and it folds; the state it leaves is then a
function of the record and the folded turn.  Everything proved about scans goes
through the equivalences of this file, never through the loop's text.

* `Admits` — the checks of `admitRecord` and `snapshotRecord`; `admitted` — the state
  they leave.
* `Tracks` — the checks of `trackRecord`.
* `advance` — the state after the fold; `stepRecord_eq_ok_iff` puts them together.
* `scanCommittedTranscript_append` — scanning a longer log is scanning the log and
  then stepping over the rest.
-/

namespace OpenGameAgent

/-! ## Admission -/

/-- The body of the loop for a record behind the retained source. -/
def stepRecord (limits : TranscriptLimits) (stream : StreamKey)
    (targetRevision : Option TranscriptRevision) (st : ScanState)
    (record : DurableTranscriptRecord) : Except TranscriptError ScanState := do
  snapshotRecord limits record
  let admitted ← admitRecord limits stream st record
  applyRecord targetRevision admitted record

/-- The record is well formed, new, in sequence, of this stream, and within budget. -/
structure Admits (limits : TranscriptLimits) (stream : StreamKey) (st : ScanState)
    (record : DurableTranscriptRecord) : Prop where
  snapshot : snapshotRecord limits record = .ok ()
  fresh : record.recordId ∉ st.recordIds
  coordinate : assertEventStreamCoordinate stream record.coordinate = .ok ()
  sequence : record.sequence = st.expected
  bytes : DurableTranscriptRecord.bytes record ≤ limits.maxRestoreBytes - st.bytes

/-- The state after the checks on a record. -/
def ScanState.admitted (st : ScanState) (record : DurableTranscriptRecord) : ScanState :=
  { st with
    recordIds := st.recordIds ++ [record.recordId]
    expected := st.expected + 1
    bytes := st.bytes + DurableTranscriptRecord.bytes record
    actualRevision := .at record.sequence }

section Admit

variable (st : ScanState) (record : DurableTranscriptRecord)

@[simp] theorem admit_openTurn : (st.admitted record).openTurn = st.openTurn := rfl

@[simp] theorem admit_durableMessages :
    (st.admitted record).durableMessages = st.durableMessages := rfl

@[simp] theorem admit_previousRecord : (st.admitted record).previousRecord = st.previousRecord := rfl

@[simp] theorem admit_deferredOrigins :
    (st.admitted record).deferredOrigins = st.deferredOrigins := rfl

@[simp] theorem admit_latestDeferredOrigins :
    (st.admitted record).latestDeferredOrigins = st.latestDeferredOrigins := rfl

@[simp] theorem admit_deferredSettlements :
    (st.admitted record).deferredSettlements = st.deferredSettlements := rfl

@[simp] theorem admit_closedDeferredRuns :
    (st.admitted record).closedDeferredRuns = st.closedDeferredRuns := rfl

@[simp] theorem admit_lastClosedTurns :
    (st.admitted record).lastClosedTurns = st.lastClosedTurns := rfl

end Admit

theorem admitRecord_eq_ok_iff {limits : TranscriptLimits} {stream : StreamKey} {st st' : ScanState}
    {record : DurableTranscriptRecord} :
    (snapshotRecord limits record = .ok () ∧ admitRecord limits stream st record = .ok st') ↔
      Admits limits stream st record ∧ st' = st.admitted record := by
  constructor
  · rintro ⟨hsnap, h⟩
    unfold admitRecord at h
    split at h
    · cases h
    · rename_i hfresh
      obtain ⟨u, hcoord, h⟩ := bind_eq_ok.1 h
      split at h
      · cases h
      · rename_i hseq
        split at h
        · cases h
        · rename_i hbytes
          have hst : st.admitted record = st' := by
            simpa only [ScanState.admitted, Except.ok.injEq] using h
          refine ⟨⟨hsnap, ?_, hcoord, ?_, ?_⟩, hst.symm⟩
          · simpa using hfresh
          · exact not_not.1 hseq
          · omega
  · rintro ⟨⟨hsnap, hfresh, hcoord, hseq, hbytes⟩, rfl⟩
    refine ⟨hsnap, ?_⟩
    have h1 : st.recordIds.contains record.recordId = false := by simpa using hfresh
    have h2 : ¬ limits.maxRestoreBytes - st.bytes < DurableTranscriptRecord.bytes record := by
      omega
    simp only [admitRecord, h1, Bool.false_eq_true, if_false, hcoord, bind, Except.bind, hseq,
      ne_eq, not_true_eq_false, h2, ScanState.admitted]

/-! ## Provider operations and runs -/

/-- A run terminal names the run's latest, settled operation and its last closed turn. -/
def RunClosable (st : ScanState) (coordinate : RunCoordinate) (data : DeferredRunClosed) : Prop :=
  ∃ origin settlement closure,
    st.latestDeferredOrigins.get? coordinate.runId = some origin ∧
    st.deferredSettlements.get? origin.data.operationId = some settlement ∧
    origin.data.operationId = data.operationId ∧ origin.data.input.inputId = data.inputId ∧
    (settlement = .abandoned → data.status = .aborted) ∧
    st.lastClosedTurns.get? coordinate.runId = some closure ∧ closure.coordinate = coordinate

/-- What a record must find in the maps about provider operations. -/
def DeferredInOrder (st : ScanState) (record : DurableTranscriptRecord) : Prop :=
  match record.data with
  | .deferredOpened data => st.deferredOrigins.has data.operationId = false
  | .deferredRunClosed data => RunClosable st record.coordinate data
  | _ => True

/-- The checks between admission and fold. -/
structure Tracks (st : ScanState) (record : DurableTranscriptRecord) : Prop where
  run_open : record.coordinate.runId ∉ st.closedDeferredRuns
  deferred : DeferredInOrder st record

@[simp] theorem runClosable_admitted {st : ScanState} {record : DurableTranscriptRecord}
    {coordinate : RunCoordinate} {data : DeferredRunClosed} :
    RunClosable (st.admitted record) coordinate data ↔ RunClosable st coordinate data := by
  simp only [RunClosable, admit_latestDeferredOrigins, admit_deferredSettlements,
    admit_lastClosedTurns]

/-- Admission changes nothing that tracking reads. -/
@[simp] theorem tracks_admitted {st : ScanState} {record record' : DurableTranscriptRecord} :
    Tracks (st.admitted record) record' ↔ Tracks st record' := by
  have hdeferred : DeferredInOrder (st.admitted record) record' ↔ DeferredInOrder st record' := by
    unfold DeferredInOrder
    cases record'.data <;> simp only [admit_deferredOrigins, runClosable_admitted]
  constructor
  · rintro ⟨hrun, hd⟩
    exact ⟨hrun, hdeferred.1 hd⟩
  · rintro ⟨hrun, hd⟩
    exact ⟨hrun, hdeferred.2 hd⟩

/-- The operation a record opens. -/
def DurableTranscriptRecord.openedOperation (record : DurableTranscriptRecord) :
    Option (RecordOf DeferredOpened) :=
  match record.data with
  | .deferredOpened data => some (record.narrow data)
  | _ => none

/-- The operation a record settles, and how. -/
def RecordData.settlement : RecordData → Option (String × DeferredSettlement)
  | .deferredCompleted data => some (data.operationId, .completed)
  | .deferredAbandoned data => some (data.operationId, .abandoned)
  | _ => none

def RecordData.isCheckpoint : RecordData → Bool
  | .contextCheckpoint _ => true
  | _ => false

/-- The state after the maps are updated. -/
def ScanState.track (st : ScanState) (record : DurableTranscriptRecord) : ScanState :=
  { st with
    checkpointRevision :=
      if record.data.isCheckpoint then some record.sequence else st.checkpointRevision
    finalOutputs :=
      match record.data.finalOutput with
      | some text => st.finalOutputs.set record.coordinate.runId text
      | none => st.finalOutputs
    deferredOrigins :=
      match record.openedOperation with
      | some opened => st.deferredOrigins.set opened.data.operationId opened
      | none => st.deferredOrigins
    latestDeferredOrigins :=
      match record.openedOperation with
      | some opened => st.latestDeferredOrigins.set record.coordinate.runId opened
      | none => st.latestDeferredOrigins
    deferredSettlements :=
      match record.data.settlement with
      | some (operationId, settlement) => st.deferredSettlements.set operationId settlement
      | none => st.deferredSettlements
    closedDeferredRuns :=
      match record.data with
      | .deferredRunClosed _ => st.closedDeferredRuns ++ [record.coordinate.runId]
      | _ => st.closedDeferredRuns
    terminalDeferredRuns :=
      match record.data with
      | .deferredRunClosed data =>
        st.terminalDeferredRuns ++ [deferredRunFromTerminal record.coordinate data]
      | _ => st.terminalDeferredRuns }

theorem trackRunClosed_eq_ok_iff {st st' : ScanState} {coordinate : RunCoordinate}
    {data : DeferredRunClosed} :
    trackRunClosed st coordinate data = .ok st' ↔
      RunClosable st coordinate data ∧
        st' = { st with
          closedDeferredRuns := st.closedDeferredRuns ++ [coordinate.runId]
          terminalDeferredRuns :=
            st.terminalDeferredRuns ++ [deferredRunFromTerminal coordinate data] } := by
  constructor
  · intro h
    unfold trackRunClosed at h
    split at h
    · cases h
    · rename_i origin horigin
      split at h
      · cases h
      · rename_i settlement hsettlement
        split at h
        · cases h
        · rename_i hid
          simp only [ne_eq, not_or, not_not] at hid
          split at h
          · cases h
          · rename_i habandoned
            split at h
            · rename_i closure hclosure
              split at h
              · rename_i hcoordinate
                rw [Except.ok.injEq] at h
                refine ⟨⟨origin, settlement, closure, horigin, hsettlement, hid.1, hid.2, ?_,
                  hclosure, hcoordinate⟩, h.symm⟩
                intro ha
                by_contra hc
                exact habandoned ⟨ha, hc⟩
              · cases h
            · cases h
  · rintro ⟨⟨origin, settlement, closure, h1, h2, h3, h4, h5, h6, h7⟩, rfl⟩
    have hid : ¬ (origin.data.operationId ≠ data.operationId ∨
        origin.data.input.inputId ≠ data.inputId) := by
      simp [h3, h4]
    have habandoned : ¬ (settlement = .abandoned ∧ data.status ≠ .aborted) :=
      fun hc => hc.2 (h5 hc.1)
    simp only [trackRunClosed, h1, h2, if_neg hid, if_neg habandoned, h6, if_pos h7]

theorem ScanState.noteOutput_eq (st : ScanState) (runId : String) (output : Option String) :
    st.noteOutput runId output = { st with
      finalOutputs :=
        match output with
        | some text => st.finalOutputs.set runId text
        | none => st.finalOutputs } := by
  cases output <;> rfl

theorem trackRecord_eq_ok_iff {st st' : ScanState} {record : DurableTranscriptRecord} :
    trackRecord st record = .ok st' ↔ Tracks st record ∧ st' = st.track record := by
  have hopen : st.closedDeferredRuns.contains record.coordinate.runId = true ↔
      ¬ record.coordinate.runId ∉ st.closedDeferredRuns := by
    simp
  constructor
  · intro h
    unfold trackRecord at h
    split at h
    · cases h
    · rename_i hrun
      rw [hopen, not_not] at hrun
      simp only [ScanState.noteOutput_eq] at h
      obtain ⟨recordId, sequence, coordinate, data⟩ := record
      cases data with
      | deferredOpened data =>
        simp only [trackDeferred] at h
        split at h
        · cases h
        · rename_i hhas
          rw [Except.ok.injEq] at h
          refine ⟨⟨hrun, ?_⟩, h.symm⟩
          simpa [DeferredInOrder] using hhas
      | deferredRunClosed data =>
        simp only [trackDeferred] at h
        rw [trackRunClosed_eq_ok_iff] at h
        exact ⟨⟨hrun, h.1⟩, h.2⟩
      | _ =>
        simp only [trackDeferred, Except.ok.injEq] at h
        exact ⟨⟨hrun, trivial⟩, h.symm⟩
  · rintro ⟨⟨hrun, hdeferred⟩, rfl⟩
    have hc : ¬ st.closedDeferredRuns.contains record.coordinate.runId = true := by
      rwa [hopen, not_not]
    rw [trackRecord, if_neg hc]
    simp only [ScanState.noteOutput_eq]
    obtain ⟨recordId, sequence, coordinate, data⟩ := record
    cases data with
    | deferredOpened data =>
      simp only [DeferredInOrder] at hdeferred
      simp only [trackDeferred, hdeferred, Bool.false_eq_true, if_false]
      rfl
    | deferredRunClosed data =>
      simp only [trackDeferred]
      rw [trackRunClosed_eq_ok_iff]
      exact ⟨hdeferred, rfl⟩
    | _ => rfl

/-! ## One step -/

/-- The state after a record whose fold left `openTurn` and `durableMessages`. -/
def ScanState.advance (targetRevision : Option TranscriptRevision) (st : ScanState)
    (record : DurableTranscriptRecord) (openTurn : Option OpenTurn)
    (durableMessages : List DurableTranscriptMessage) : ScanState :=
  closeScanStep targetRevision st.openTurn
    { st.track record with openTurn, durableMessages } record

theorem applyRecord_eq_ok_iff {targetRevision : Option TranscriptRevision} {st st' : ScanState}
    {record : DurableTranscriptRecord} :
    applyRecord targetRevision st record = .ok st' ↔
      Tracks st record ∧ ∃ openTurn messages,
        foldRecord record st.openTurn st.durableMessages st.previousRecord =
          .ok (openTurn, messages) ∧
        st' = st.advance targetRevision record openTurn messages := by
  unfold applyRecord
  rw [bind_eq_ok]
  constructor
  · rintro ⟨tracked, htrack, h⟩
    obtain ⟨htracks, rfl⟩ := trackRecord_eq_ok_iff.1 htrack
    obtain ⟨⟨openTurn, messages⟩, hfold, h⟩ := bind_eq_ok.1 h
    refine ⟨htracks, openTurn, messages, hfold, ?_⟩
    simpa [pure, Except.pure, ScanState.advance] using h.symm
  · rintro ⟨htracks, openTurn, messages, hfold, rfl⟩
    refine ⟨st.track record, trackRecord_eq_ok_iff.2 ⟨htracks, rfl⟩, ?_⟩
    exact bind_eq_ok.2 ⟨(openTurn, messages), hfold, rfl⟩

/-- A step succeeds exactly when the record is admitted, tracked and folded. -/
theorem stepRecord_eq_ok_iff {limits : TranscriptLimits} {stream : StreamKey}
    {targetRevision : Option TranscriptRevision} {st st' : ScanState}
    {record : DurableTranscriptRecord} :
    stepRecord limits stream targetRevision st record = .ok st' ↔
      Admits limits stream st record ∧ Tracks st record ∧ ∃ openTurn messages,
        foldRecord record st.openTurn st.durableMessages st.previousRecord =
          .ok (openTurn, messages) ∧
        st' = (st.admitted record).advance targetRevision record openTurn messages := by
  have happly := @applyRecord_eq_ok_iff targetRevision (st.admitted record) st' record
  rw [tracks_admitted, admit_openTurn, admit_durableMessages, admit_previousRecord] at happly
  unfold stepRecord
  rw [bind_eq_ok]
  constructor
  · rintro ⟨u, hsnap, h⟩
    obtain ⟨admitted, hpass, h⟩ := bind_eq_ok.1 h
    obtain ⟨hadmits, rfl⟩ := admitRecord_eq_ok_iff.1 ⟨hsnap, hpass⟩
    exact ⟨hadmits, happly.1 h⟩
  · rintro ⟨hadmits, h⟩
    obtain ⟨hsnap, hpass⟩ := admitRecord_eq_ok_iff.2 ⟨hadmits, rfl⟩
    exact ⟨(), hsnap, bind_eq_ok.2 ⟨_, hpass, happly.2 h⟩⟩

theorem stepRecord_of {limits : TranscriptLimits} {stream : StreamKey}
    {targetRevision : Option TranscriptRevision} {st : ScanState}
    {record : DurableTranscriptRecord} {openTurn : Option OpenTurn}
    {messages : List DurableTranscriptMessage} (hadmits : Admits limits stream st record)
    (htracks : Tracks st record)
    (hfold : foldRecord record st.openTurn st.durableMessages st.previousRecord =
      .ok (openTurn, messages)) :
    stepRecord limits stream targetRevision st record =
      .ok ((st.admitted record).advance targetRevision record openTurn messages) :=
  stepRecord_eq_ok_iff.2 ⟨hadmits, htracks, openTurn, messages, hfold, rfl⟩

/-! ## The loop as a run of steps -/

/-- Away from the retained source and its checkpoint the loop is `stepRecord`. -/
theorem scanRecord_eq_stepRecord {limits : TranscriptLimits} {stream : StreamKey}
    {targetRevision : Option TranscriptRevision} {count index : Nat} {st : ScanState}
    {record : DurableTranscriptRecord} (hindex : index ≠ 0)
    (hkept : st.hasRetainedPrefix = true → index ≠ 1) :
    scanRecord limits stream targetRevision count index st record =
      stepRecord limits stream targetRevision st record := by
  unfold scanRecord stepRecord
  simp only [if_neg hindex]
  congr 1
  funext _
  cases hpass : admitRecord limits stream st record with
  | error e => rfl
  | ok admitted =>
    have hkeep : admitted.hasRetainedPrefix = st.hasRetainedPrefix := by
      unfold admitRecord at hpass
      split at hpass
      · cases hpass
      · obtain ⟨u, -, hpass⟩ := bind_eq_ok.1 hpass
        split at hpass
        · cases hpass
        · split at hpass
          · cases hpass
          · rw [Except.ok.injEq] at hpass
            exact hpass ▸ rfl
    have h0 : ¬ (admitted.hasRetainedPrefix = true ∧ index = 0) := fun h => hindex h.2
    have h1 : ¬ (admitted.hasRetainedPrefix = true ∧ index = 1) :=
      fun h => hkept (hkeep ▸ h.1) h.2
    simp only [bind, Except.bind, if_neg h0, if_neg h1]

theorem stepRecord_hasRetainedPrefix {limits : TranscriptLimits} {stream : StreamKey}
    {targetRevision : Option TranscriptRevision} {st st' : ScanState}
    {record : DurableTranscriptRecord}
    (h : stepRecord limits stream targetRevision st record = .ok st') :
    st'.hasRetainedPrefix = st.hasRetainedPrefix := by
  obtain ⟨-, -, openTurn, messages, -, rfl⟩ := stepRecord_eq_ok_iff.1 h
  rfl

theorem scanRecords_eq_runM {limits : TranscriptLimits} {stream : StreamKey}
    {targetRevision : Option TranscriptRevision} {count index : Nat} {st : ScanState}
    {records : List DurableTranscriptRecord} (hindex : index ≠ 0)
    (hkept : st.hasRetainedPrefix = true → 2 ≤ index) :
    scanRecords limits stream targetRevision count index st records =
      runM (stepRecord limits stream targetRevision) st records := by
  induction records generalizing index st with
  | nil => rfl
  | cons record rest ih =>
    have hstep : scanRecord limits stream targetRevision count index st record =
        stepRecord limits stream targetRevision st record :=
      scanRecord_eq_stepRecord hindex (fun hp => by have := hkept hp; omega)
    rw [scanRecords, runM_cons, hstep]
    cases h : stepRecord limits stream targetRevision st record with
    | error e => rfl
    | ok next =>
      have hkeep := stepRecord_hasRetainedPrefix h
      exact ih (by omega) (fun hp => by have := hkept (hkeep ▸ hp); omega)

/-- The loop over a whole log. -/
def scanLog (limits : TranscriptLimits) (stream : StreamKey)
    (targetRevision : Option TranscriptRevision) (records : List DurableTranscriptRecord) :
    Except TranscriptError ScanState :=
  scanRecords limits stream targetRevision records.length 0 (ScanState.initial targetRevision)
    records

theorem scanCommittedTranscript_eq_ok_iff {limits : TranscriptLimits} {stream : StreamKey}
    {loaded : TranscriptStoredStream} {targetRevision : Option TranscriptRevision}
    {st : ScanState} :
    scanCommittedTranscript limits stream loaded targetRevision = .ok st ↔
      snapshotRevision limits loaded.revision = .ok () ∧
      scanLog limits stream targetRevision loaded.records = .ok st ∧
      loaded.revision = st.actualRevision ∧ ¬ (targetRevision.isSome ∧ st.target.isNone) := by
  unfold scanCommittedTranscript scanLog
  rw [bind_eq_ok]
  constructor
  · rintro ⟨u, hrev, h⟩
    obtain ⟨mid, hscan, h⟩ := bind_eq_ok.1 h
    split at h
    · cases h
    · rename_i hhead
      split at h
      · cases h
      · rename_i htarget
        cases h
        exact ⟨hrev, hscan, not_not.1 hhead, htarget⟩
  · rintro ⟨hrev, hscan, hhead, htarget⟩
    refine ⟨(), hrev, bind_eq_ok.2 ⟨st, hscan, ?_⟩⟩
    rw [if_neg (not_not.2 hhead), if_neg htarget]
    rfl

/-- The state in which the first record of a log is admitted. -/
def ScanState.start (targetRevision : Option TranscriptRevision) (sequence : Nat) : ScanState :=
  (ScanState.initial targetRevision).startAt targetRevision sequence

/-- The state behind the retained source of a purged log. -/
def ScanState.retained (targetRevision : Option TranscriptRevision)
    (source : DurableTranscriptRecord) : ScanState :=
  { (ScanState.start targetRevision source.sequence).admitted source with
    previousRecord := some source }

/-- A retained prefix: the completed turn closure and its checkpoint at once behind it. -/
structure RetainedSource (limits : TranscriptLimits) (stream : StreamKey)
    (targetRevision : Option TranscriptRevision) (source : DurableTranscriptRecord)
    (rest : List DurableTranscriptRecord) : Prop where
  purged : 1 < source.sequence
  closed : source.data = .turnClosed .completed
  admits : Admits limits stream (ScanState.start targetRevision source.sequence) source
  checkpoint : ∃ c tail, rest = c :: tail ∧ c.data.isCheckpoint = true

theorem isCheckpoint_iff {data : RecordData} :
    data.isCheckpoint = true ↔ ∃ c, data = .contextCheckpoint c := by
  cases data <;> simp [RecordData.isCheckpoint]

theorem scanRecord_checkpoint {limits : TranscriptLimits} {stream : StreamKey}
    {targetRevision : Option TranscriptRevision} {count : Nat} {st : ScanState}
    {record : DurableTranscriptRecord} (hkept : st.hasRetainedPrefix = true) {st' : ScanState} :
    scanRecord limits stream targetRevision count 1 st record = .ok st' ↔
      record.data.isCheckpoint = true ∧
        stepRecord limits stream targetRevision st record = .ok st' := by
  unfold scanRecord stepRecord
  simp only [bind_eq_ok, Nat.one_ne_zero, if_false, and_false, and_true]
  constructor
  · rintro ⟨u, hsnap, admitted, hpass, h⟩
    obtain ⟨-, rfl⟩ := admitRecord_eq_ok_iff.1 ⟨hsnap, hpass⟩
    rw [if_pos (show (st.admitted record).hasRetainedPrefix = true from hkept)] at h
    split at h
    · rename_i data hdata
      exact ⟨isCheckpoint_iff.2 ⟨_, hdata⟩, u, hsnap, _, hpass, h⟩
    · cases h
  · rintro ⟨hcheckpoint, u, hsnap, admitted, hpass, h⟩
    obtain ⟨-, rfl⟩ := admitRecord_eq_ok_iff.1 ⟨hsnap, hpass⟩
    obtain ⟨c, hc⟩ := isCheckpoint_iff.1 hcheckpoint
    refine ⟨u, hsnap, _, hpass, ?_⟩
    rw [if_pos (show (st.admitted record).hasRetainedPrefix = true from hkept), hc]
    exact h

theorem start_hasRetainedPrefix (targetRevision : Option TranscriptRevision) (sequence : Nat) :
    (ScanState.start targetRevision sequence).hasRetainedPrefix = decide (1 < sequence) := rfl

theorem scanRecord_source {limits : TranscriptLimits} {stream : StreamKey}
    {targetRevision : Option TranscriptRevision} {count : Nat}
    {record : DurableTranscriptRecord} {next : ScanState} (hpurged : 1 < record.sequence) :
    scanRecord limits stream targetRevision count 0 (ScanState.initial targetRevision) record =
        .ok next ↔
      record.data = .turnClosed .completed ∧ 2 ≤ count ∧
        Admits limits stream (ScanState.start targetRevision record.sequence) record ∧
        next = ScanState.retained targetRevision record := by
  have hp : ((ScanState.start targetRevision record.sequence).admitted record).hasRetainedPrefix =
      true := decide_eq_true hpurged
  unfold scanRecord
  simp only [if_true, bind_eq_ok, and_true, Nat.zero_ne_one, and_false, if_false]
  rw [← ScanState.start]
  constructor
  · rintro ⟨u, hsnap, admitted, hpass, h⟩
    obtain ⟨hadmits, rfl⟩ := admitRecord_eq_ok_iff.1 ⟨hsnap, hpass⟩
    rw [if_pos hp] at h
    split at h
    · rename_i hdata
      split at h
      · cases h
      · rw [Except.ok.injEq] at h
        exact ⟨hdata, by omega, hadmits, h.symm⟩
    · cases h
  · rintro ⟨hdata, hcount, hadmits, rfl⟩
    obtain ⟨hsnap, hpass⟩ := admitRecord_eq_ok_iff.2 ⟨hadmits, rfl⟩
    refine ⟨(), hsnap, _, hpass, ?_⟩
    rw [if_pos hp, hdata]
    simp only [if_neg (show ¬ count < 2 by omega)]
    rfl

theorem scanRecord_first {limits : TranscriptLimits} {stream : StreamKey}
    {targetRevision : Option TranscriptRevision} {count : Nat}
    {record : DurableTranscriptRecord} {next : ScanState} (hfirst : record.sequence ≤ 1) :
    scanRecord limits stream targetRevision count 0 (ScanState.initial targetRevision) record =
        .ok next ↔
      stepRecord limits stream targetRevision (ScanState.start targetRevision record.sequence)
        record = .ok next := by
  have hp : ¬ ((ScanState.start targetRevision record.sequence).admitted record).hasRetainedPrefix =
      true := fun hc => absurd (of_decide_eq_true hc) (by omega)
  unfold scanRecord stepRecord
  simp only [if_true, bind_eq_ok, and_true, Nat.zero_ne_one, and_false, if_false]
  rw [← ScanState.start]
  constructor
  · rintro ⟨u, hsnap, admitted, hpass, h⟩
    obtain ⟨-, rfl⟩ := admitRecord_eq_ok_iff.1 ⟨hsnap, hpass⟩
    rw [if_neg hp] at h
    exact ⟨u, hsnap, _, hpass, h⟩
  · rintro ⟨u, hsnap, admitted, hpass, h⟩
    obtain ⟨-, rfl⟩ := admitRecord_eq_ok_iff.1 ⟨hsnap, hpass⟩
    exact ⟨u, hsnap, _, hpass, by rw [if_neg hp]; exact h⟩

/-- A log is either complete from its first record or begins at a retained source. -/
theorem scanLog_cons {limits : TranscriptLimits} {stream : StreamKey}
    {targetRevision : Option TranscriptRevision} {record : DurableTranscriptRecord}
    {rest : List DurableTranscriptRecord} {st : ScanState} :
    scanLog limits stream targetRevision (record :: rest) = .ok st ↔
      (record.sequence ≤ 1 ∧ runM (stepRecord limits stream targetRevision)
        (ScanState.start targetRevision record.sequence) (record :: rest) = .ok st) ∨
      (RetainedSource limits stream targetRevision record rest ∧
        runM (stepRecord limits stream targetRevision)
          (ScanState.retained targetRevision record) rest = .ok st) := by
  unfold scanLog
  rw [scanRecords, bind_eq_ok]
  by_cases hpurged : 1 < record.sequence
  · have hp : (ScanState.retained targetRevision record).hasRetainedPrefix = true :=
      decide_eq_true hpurged
    constructor
    · rintro ⟨next, hnext, hrest⟩
      obtain ⟨hdata, hcount, hadmits, rfl⟩ := (scanRecord_source hpurged).1 hnext
      cases rest with
      | nil => simp at hcount
      | cons c tail =>
        rw [scanRecords, bind_eq_ok] at hrest
        obtain ⟨mid, hmid, hrest⟩ := hrest
        obtain ⟨hcheckpoint, hstep⟩ := (scanRecord_checkpoint hp).1 hmid
        rw [scanRecords_eq_runM (by omega) (fun _ => by omega)] at hrest
        exact Or.inr ⟨⟨hpurged, hdata, hadmits, c, tail, rfl, hcheckpoint⟩,
          runM_cons_eq_ok.2 ⟨mid, hstep, hrest⟩⟩
    · rintro (⟨hle, -⟩ | ⟨⟨-, hdata, hadmits, c, tail, rfl, hcheckpoint⟩, hrun⟩)
      · omega
      · refine ⟨_, (scanRecord_source hpurged).2 ⟨hdata, by simp, hadmits, rfl⟩, ?_⟩
        obtain ⟨mid, hstep, hrest⟩ := runM_cons_eq_ok.1 hrun
        rw [scanRecords, bind_eq_ok]
        refine ⟨mid, (scanRecord_checkpoint hp).2 ⟨hcheckpoint, hstep⟩, ?_⟩
        rw [scanRecords_eq_runM (by omega) (fun _ => by omega)]
        exact hrest
  · have hfirst : record.sequence ≤ 1 := by omega
    have hrest : ∀ next, stepRecord limits stream targetRevision
          (ScanState.start targetRevision record.sequence) record = .ok next →
        scanRecords limits stream targetRevision (record :: rest).length (0 + 1) next rest =
          runM (stepRecord limits stream targetRevision) next rest := by
      intro next hnext
      refine scanRecords_eq_runM (by omega) ?_
      intro hp
      rw [stepRecord_hasRetainedPrefix hnext, start_hasRetainedPrefix] at hp
      exact absurd (of_decide_eq_true hp) hpurged
    rw [runM_cons_eq_ok]
    constructor
    · rintro ⟨next, hnext, h⟩
      have hstep := (scanRecord_first hfirst).1 hnext
      rw [hrest next hstep] at h
      exact Or.inl ⟨hfirst, next, hstep, h⟩
    · rintro (⟨-, next, hstep, h⟩ | ⟨hsource, -⟩)
      · exact ⟨next, (scanRecord_first hfirst).2 hstep, by rw [hrest next hstep]; exact h⟩
      · exact absurd hsource.purged hpurged

/-- A longer log is scanned by stepping on from the end of the shorter one. -/
theorem scanLog_append {limits : TranscriptLimits} {stream : StreamKey}
    {targetRevision : Option TranscriptRevision} {records more : List DurableTranscriptRecord}
    {mid st : ScanState} (hne : records ≠ [])
    (hmid : scanLog limits stream targetRevision records = .ok mid) :
    scanLog limits stream targetRevision (records ++ more) = .ok st ↔
      runM (stepRecord limits stream targetRevision) mid more = .ok st := by
  cases records with
  | nil => exact absurd rfl hne
  | cons record rest =>
    have hstart : ∀ {s s' : ScanState} {l : List DurableTranscriptRecord},
        runM (stepRecord limits stream targetRevision) s l = .ok mid →
        (runM (stepRecord limits stream targetRevision) s (l ++ more) = .ok s' ↔
          runM (stepRecord limits stream targetRevision) mid more = .ok s') := by
      intro s s' l hl
      rw [runM_append, hl]
      rfl
    rcases scanLog_cons.1 hmid with ⟨hle, hrun⟩ | ⟨hsource, hrun⟩
    · rw [List.cons_append, scanLog_cons, ← List.cons_append, hstart hrun]
      constructor
      · rintro (h | ⟨hsource, -⟩)
        · exact h.2
        · exact absurd hsource.purged (by omega)
      · intro h
        exact Or.inl ⟨hle, h⟩
    · rw [List.cons_append, scanLog_cons, hstart hrun]
      constructor
      · rintro (⟨hle, -⟩ | h)
        · exact absurd hsource.purged (by omega)
        · exact h.2
      · intro h
        obtain ⟨c, tail, rfl, hcheckpoint⟩ := hsource.checkpoint
        exact Or.inr ⟨⟨hsource.purged, hsource.closed, hsource.admits, c, tail ++ more, rfl,
          hcheckpoint⟩, h⟩

/-- What holds where a log may begin and is preserved by every step holds after a scan. -/
theorem scanLog_invariant {limits : TranscriptLimits} {stream : StreamKey}
    {targetRevision : Option TranscriptRevision} (P : ScanState → Prop)
    (hinitial : P (ScanState.initial targetRevision))
    (hstart : ∀ sequence, P (ScanState.start targetRevision sequence))
    (hretained : ∀ source,
      Admits limits stream (ScanState.start targetRevision source.sequence) source →
      source.data = .turnClosed .completed → P (ScanState.retained targetRevision source))
    (hstep : ∀ st record st', P st → stepRecord limits stream targetRevision st record = .ok st' →
      P st')
    {records : List DurableTranscriptRecord} {st : ScanState}
    (h : scanLog limits stream targetRevision records = .ok st) : P st := by
  cases records with
  | nil =>
    cases h
    exact hinitial
  | cons record rest =>
    rcases scanLog_cons.1 h with ⟨-, hrun⟩ | ⟨hsource, hrun⟩
    · exact runM_invariant P hstep (hstart _) hrun
    · exact runM_invariant P hstep (hretained record hsource.admits hsource.closed) hrun

/-- The revision of a log: that of its last record. -/
def headRevision (records : List DurableTranscriptRecord) : TranscriptRevision :=
  match records.getLast? with
  | some last => .at last.sequence
  | none => .empty

theorem headRevision_append_cons (records : List DurableTranscriptRecord)
    (record : DurableTranscriptRecord) (rest : List DurableTranscriptRecord) :
    headRevision (records ++ record :: rest) = headRevision (record :: rest) := by
  unfold headRevision
  rw [List.getLast?_append_of_ne_nil _ (by simp)]

theorem runM_actualRevision {limits : TranscriptLimits} {stream : StreamKey}
    {targetRevision : Option TranscriptRevision} {st st' : ScanState}
    {records : List DurableTranscriptRecord} (hne : records ≠ [])
    (h : runM (stepRecord limits stream targetRevision) st records = .ok st') :
    st'.actualRevision = headRevision records := by
  induction records generalizing st with
  | nil => exact absurd rfl hne
  | cons record rest ih =>
    obtain ⟨mid, hmid, hrest⟩ := runM_cons_eq_ok.1 h
    cases rest with
    | nil =>
      cases hrest
      obtain ⟨-, -, openTurn, messages, -, rfl⟩ := stepRecord_eq_ok_iff.1 hmid
      rfl
    | cons next rest =>
      rw [ih (by simp) hrest]
      exact (headRevision_append_cons [record] next rest).symm

/-- A scan reports the revision of the log's last record. -/
theorem scanLog_actualRevision {limits : TranscriptLimits} {stream : StreamKey}
    {targetRevision : Option TranscriptRevision} {records : List DurableTranscriptRecord}
    {st : ScanState} (h : scanLog limits stream targetRevision records = .ok st) :
    st.actualRevision = headRevision records := by
  cases records with
  | nil => cases h; rfl
  | cons record rest =>
    rcases scanLog_cons.1 h with ⟨-, hrun⟩ | ⟨hsource, hrun⟩
    · exact runM_actualRevision (by simp) hrun
    · obtain ⟨c, tail, rfl, -⟩ := hsource.checkpoint
      rw [runM_actualRevision (by simp) hrun]
      exact (headRevision_append_cons [record] c tail).symm

end OpenGameAgent
