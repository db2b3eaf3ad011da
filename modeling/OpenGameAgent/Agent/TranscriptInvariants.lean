import OpenGameAgent.Agent.TranscriptStep

/-!
# Invariants of a scan

`ScanState.Coherent` relates the open turn and the maps about provider operations
in every state a scan passes through; `coherent_scan` says that it holds there.

* `origin_settled` — the latest operation of a run is settled, or the open turn is
  waiting for it.
* `origin_closure` — a run with an operation has a closed turn, or the open turn
  is its own.
* `calls_distinct` — no two Tool calls of the open turn answer to one name.
-/

namespace OpenGameAgent

/-! ## The fields of the next state -/

section Advance

variable (targetRevision : Option TranscriptRevision) (st : ScanState)
  (record : DurableTranscriptRecord) (openTurn : Option OpenTurn)
  (messages : List DurableTranscriptMessage)

@[simp] theorem advance_openTurn :
    (st.advance targetRevision record openTurn messages).openTurn = openTurn := rfl

@[simp] theorem advance_durableMessages :
    (st.advance targetRevision record openTurn messages).durableMessages = messages := rfl

@[simp] theorem advance_expected :
    (st.advance targetRevision record openTurn messages).expected = st.expected := rfl

@[simp] theorem advance_bytes :
    (st.advance targetRevision record openTurn messages).bytes = st.bytes := rfl

@[simp] theorem advance_recordIds :
    (st.advance targetRevision record openTurn messages).recordIds = st.recordIds := rfl

theorem advance_checkpointRevision :
    (st.advance targetRevision record openTurn messages).checkpointRevision =
      if record.data.isCheckpoint then some record.sequence else st.checkpointRevision := rfl

theorem advance_latestDeferredOrigins :
    (st.advance targetRevision record openTurn messages).latestDeferredOrigins =
      match record.openedOperation with
      | some opened => st.latestDeferredOrigins.set record.coordinate.runId opened
      | none => st.latestDeferredOrigins := rfl

theorem advance_deferredOrigins :
    (st.advance targetRevision record openTurn messages).deferredOrigins =
      match record.openedOperation with
      | some opened => st.deferredOrigins.set opened.data.operationId opened
      | none => st.deferredOrigins := rfl

theorem advance_deferredSettlements :
    (st.advance targetRevision record openTurn messages).deferredSettlements =
      match record.data.settlement with
      | some (operationId, settlement) => st.deferredSettlements.set operationId settlement
      | none => st.deferredSettlements := rfl

theorem advance_closedDeferredRuns :
    (st.advance targetRevision record openTurn messages).closedDeferredRuns =
      match record.data with
      | .deferredRunClosed _ => st.closedDeferredRuns ++ [record.coordinate.runId]
      | _ => st.closedDeferredRuns := rfl

theorem advance_terminalDeferredRuns :
    (st.advance targetRevision record openTurn messages).terminalDeferredRuns =
      match record.data with
      | .deferredRunClosed data =>
        st.terminalDeferredRuns ++ [deferredRunFromTerminal record.coordinate data]
      | _ => st.terminalDeferredRuns := rfl

theorem advance_lastClosedTurns :
    (st.advance targetRevision record openTurn messages).lastClosedTurns =
      match record.data, st.openTurn with
      | .turnClosed status, some turn =>
        st.lastClosedTurns.set record.coordinate.runId
          ⟨record.coordinate, status, turn.assistantStopReason⟩
      | _, _ => st.lastClosedTurns := rfl

/-- Which record types touch which maps. -/
theorem openedOperation_eq_some {record : DurableTranscriptRecord}
    {opened : RecordOf DeferredOpened} :
    record.openedOperation = some opened ↔
      ∃ data, record.data = .deferredOpened data ∧ opened = record.narrow data := by
  unfold DurableTranscriptRecord.openedOperation
  cases record.data <;> simp [eq_comm]

end Advance

/-! ## What a fold leaves of the turn -/

/-- The name by which Tool records refer to a call. -/
def OpenToolCall.key (tool : OpenToolCall) : String × Nat :=
  (tool.assistantRecordId, tool.sourceIndex)

theorem openToolCallsFrom_key (recordId : String) (index : Nat) (content : List AssistantContent) :
    ∀ tool ∈ openToolCallsFrom recordId index content,
      tool.assistantRecordId = recordId ∧ index ≤ tool.sourceIndex ∧
        tool.sourceIndex < index + content.length := by
  induction content generalizing index with
  | nil => intro tool h; simp [openToolCallsFrom] at h
  | cons part rest ih =>
    have hrest : ∀ tool ∈ openToolCallsFrom recordId (index + 1) rest,
        tool.assistantRecordId = recordId ∧ index ≤ tool.sourceIndex ∧
          tool.sourceIndex < index + (part :: rest).length := by
      intro tool h
      obtain ⟨h1, h2, h3⟩ := ih (index + 1) tool h
      rw [List.length_cons]
      exact ⟨h1, by omega, by omega⟩
    intro tool h
    cases part with
    | toolCall call =>
      rw [openToolCallsFrom, List.mem_cons] at h
      rcases h with rfl | h
      · exact ⟨rfl, Nat.le_refl _, by simp⟩
      · exact hrest tool h
    | text _ => exact hrest tool h
    | thinking _ => exact hrest tool h

theorem openToolCalls_nodup (recordId : String) (message : AssistantMessage) :
    ((openToolCalls recordId message).map OpenToolCall.key).Nodup := by
  unfold openToolCalls
  generalize 0 = index
  induction message.content generalizing index with
  | nil => exact List.nodup_nil
  | cons part rest ih =>
    cases part with
    | toolCall call =>
      rw [openToolCallsFrom, List.map_cons, List.nodup_cons]
      refine ⟨?_, ih _⟩
      intro hmem
      obtain ⟨tool, htool, hkey⟩ := List.mem_map.1 hmem
      have hlt := (openToolCallsFrom_key recordId (index + 1) rest tool htool).2.1
      simp only [OpenToolCall.key, Prod.mk.injEq] at hkey
      omega
    | text _ => exact ih _
    | thinking _ => exact ih _

theorem map_key_set {calls : List OpenToolCall} {index : Nat} {tool tool' : OpenToolCall}
    (h : calls[index]? = some tool) (hkey : tool'.key = tool.key) :
    (calls.set index tool').map OpenToolCall.key = calls.map OpenToolCall.key := by
  obtain ⟨hlt, hget⟩ := List.getElem?_eq_some_iff.1 h
  have hmap : index < (calls.map OpenToolCall.key).length := by simpa using hlt
  have hself : tool.key = (calls.map OpenToolCall.key)[index] := by
    rw [List.getElem_map, hget]
  rw [List.map_set, hkey, hself]
  exact List.set_getElem_self hmap

theorem nodup_key_set {calls : List OpenToolCall} {index : Nat} {tool tool' : OpenToolCall}
    (h : calls[index]? = some tool) (hkey : tool'.key = tool.key)
    (hnodup : (calls.map OpenToolCall.key).Nodup) :
    ((calls.set index tool').map OpenToolCall.key).Nodup := by
  rw [map_key_set h hkey]
  exact hnodup

/-- The operation a record leaves pending in its turn. -/
def nextPending (turn : OpenTurn) (record : DurableTranscriptRecord) :
    Option (RecordOf DeferredOpened) :=
  match record.data with
  | .deferredOpened data => some (record.narrow data)
  | .deferredCompleted _ | .deferredAbandoned _ => none
  | _ => turn.pending

/-- What holds of a turn record's turn behind it. -/
structure TurnStep (turn : OpenTurn) (record : DurableTranscriptRecord) (turn' : OpenTurn) :
    Prop where
  coordinate : turn'.coordinate = turn.coordinate
  pending : turn'.pending = nextPending turn record
  distinct : (turn.toolCalls.map OpenToolCall.key).Nodup →
    (turn'.toolCalls.map OpenToolCall.key).Nodup
  opens : record.openedOperation.isSome = true → turn.pending = none
  settles : ∀ operationId settlement, record.data.settlement = some (operationId, settlement) →
    ∃ opened, turn.pending = some opened ∧ opened.data.operationId = operationId

theorem pending_of_deferred_none {turn : OpenTurn} (h : turn.deferred = none) :
    turn.pending = none := by
  rw [OpenTurn.pending, h]

theorem foldTurnRecord_spec {turn turn' : OpenTurn} {record : DurableTranscriptRecord}
    (h : foldTurnRecord turn record = .ok turn') : TurnStep turn record turn' := by
  obtain ⟨recordId, sequence, coordinate, data⟩ := record
  cases data with
  | userCompleted message =>
    obtain ⟨-, -, rfl⟩ := foldUserMessage_eq_ok_iff.1 h
    exact ⟨rfl, rfl, id, nofun, nofun⟩
  | assistantCompleted message =>
    obtain ⟨-, -, rfl⟩ := foldAssistantMessage_eq_ok_iff.1 h
    exact ⟨rfl, rfl, fun _ => openToolCalls_nodup _ _, nofun, nofun⟩
  | toolStarted data =>
    obtain ⟨index, tool, hnames, -, -, rfl⟩ := foldToolStarted_eq_ok_iff.1 h
    exact ⟨rfl, rfl, nodup_key_set hnames.at_index rfl, nofun, nofun⟩
  | toolCompleted data =>
    obtain ⟨index, tool, -, hnames, -, -, rfl⟩ := foldToolCompleted_eq_ok_iff.1 h
    exact ⟨rfl, rfl, nodup_key_set hnames.at_index rfl, nofun, nofun⟩
  | deferredOpened data =>
    obtain ⟨-, hdeferred, rfl⟩ := foldDeferredOpened_eq_ok_iff.1 h
    exact ⟨rfl, rfl, id, fun _ => pending_of_deferred_none hdeferred, nofun⟩
  | deferredCompleted data =>
    obtain ⟨opened, hpending, hid, -, -, -, -, rfl⟩ := foldDeferredCompleted_eq_ok_iff.1 h
    refine ⟨rfl, rfl, fun _ => openToolCalls_nodup _ _, nofun, ?_⟩
    rintro operationId settlement ⟨⟩
    exact ⟨opened, hpending, hid⟩
  | deferredAbandoned data =>
    obtain ⟨opened, hpending, hid, -, rfl⟩ := foldDeferredAbandoned_eq_ok_iff.1 h
    refine ⟨rfl, rfl, id, nofun, ?_⟩
    rintro operationId settlement ⟨⟩
    exact ⟨opened, hpending, hid⟩
  | turnClosed _ => cases h; exact ⟨rfl, rfl, id, nofun, nofun⟩
  | contextCheckpoint _ =>
    cases h; exact ⟨rfl, rfl, id, nofun, nofun⟩
  | deferredRunClosed _ =>
    cases h; exact ⟨rfl, rfl, id, nofun, nofun⟩

/-! ## The invariant -/

/-- The open turn, the operations and the closed turns of a scan fit together. -/
structure ScanState.Coherent (st : ScanState) : Prop where
  head : ∀ sequence, st.actualRevision = .at sequence → st.expected = sequence + 1
  open_run : ∀ turn, st.openTurn = some turn → turn.coordinate.runId ∉ st.closedDeferredRuns
  calls_distinct : ∀ turn, st.openTurn = some turn → (turn.toolCalls.map OpenToolCall.key).Nodup
  pending_latest : ∀ turn origin, st.openTurn = some turn → turn.pending = some origin →
    st.latestDeferredOrigins.get? turn.coordinate.runId = some origin
  origin_settled : ∀ runId origin, st.latestDeferredOrigins.get? runId = some origin →
    (∃ settlement, st.deferredSettlements.get? origin.data.operationId = some settlement) ∨
      ∃ turn, st.openTurn = some turn ∧ turn.pending = some origin
  origin_closure : ∀ runId origin, st.latestDeferredOrigins.get? runId = some origin →
    (∃ closure, st.lastClosedTurns.get? runId = some closure) ∨
      ∃ turn, st.openTurn = some turn ∧ turn.coordinate.runId = runId
  closure_run : ∀ runId closure, st.lastClosedTurns.get? runId = some closure →
    closure.coordinate.runId = runId

/-- A state without turns, operations and runs is coherent. -/
theorem coherent_of_empty {st : ScanState} (hturn : st.openTurn = none)
    (hlatest : st.latestDeferredOrigins = .empty) (hclosed : st.lastClosedTurns = .empty)
    (hhead : ∀ sequence, st.actualRevision = .at sequence → st.expected = sequence + 1) :
    st.Coherent where
  head := hhead
  open_run := by rw [hturn]; rintro turn ⟨⟩
  calls_distinct := by rw [hturn]; rintro turn ⟨⟩
  pending_latest := by rw [hturn]; rintro turn origin ⟨⟩
  origin_settled := by rw [hlatest]; rintro runId origin ⟨⟩
  origin_closure := by rw [hlatest]; rintro runId origin ⟨⟩
  closure_run := by rw [hclosed]; rintro runId closure ⟨⟩

/-- Admission touches none of what the invariant is about but the head. -/
theorem ScanState.Coherent.admitted {st : ScanState} (h : st.Coherent) {record : DurableTranscriptRecord}
    (hsequence : record.sequence = st.expected) : (st.admitted record).Coherent where
  head := by
    intro sequence hs
    cases hs
    simp only [ScanState.admitted, hsequence]
  open_run := h.open_run
  calls_distinct := h.calls_distinct
  pending_latest := h.pending_latest
  origin_settled := h.origin_settled
  origin_closure := h.origin_closure
  closure_run := h.closure_run

/-- Which kind of record was folded, and what that says. -/
inductive Folded (record : DurableTranscriptRecord) (openTurn : Option OpenTurn) :
    Option OpenTurn → Prop where
  | turn (turn : OpenTurn) (inTurn : record.data.inTurn = true)
      (coordinate : (openTurn.getD (OpenTurn.fresh record.coordinate)).coordinate =
        record.coordinate)
      (step : TurnStep (openTurn.getD (OpenTurn.fresh record.coordinate)) record turn) :
      Folded record openTurn (some turn)
  | closed (turn : OpenTurn) (status : TurnStatus) (data : record.data = .turnClosed status)
      (opened : openTurn = some turn) (coordinate : turn.coordinate = record.coordinate)
      (pending : turn.pending = none) : Folded record openTurn none
  | checkpoint (data : record.data.isCheckpoint = true) (opened : openTurn = none) :
      Folded record openTurn none
  | runClosed (data : DeferredRunClosed) (eq : record.data = .deferredRunClosed data)
      (opened : openTurn = none) : Folded record openTurn none

theorem folded_of_ok {record : DurableTranscriptRecord} {openTurn openTurn' : Option OpenTurn}
    {messages messages' : List DurableTranscriptMessage}
    {previousRecord : Option DurableTranscriptRecord}
    (h : foldRecord record openTurn messages previousRecord = .ok (openTurn', messages')) :
    Folded record openTurn openTurn' := by
  by_cases hin : record.data.inTurn = true
  · obtain ⟨hcoordinate, turn, hfold, rfl, -⟩ := (foldRecord_inTurn hin).1 h
    exact .turn turn hin hcoordinate (foldTurnRecord_spec hfold)
  · cases hdata : record.data with
    | turnClosed status =>
      obtain ⟨hclosed, rfl, -⟩ := (foldRecord_turnClosed hdata).1 h
      obtain ⟨turn, hopen, hcoordinate, hpending, -, -⟩ := foldTurnClosed_eq_ok_iff.1 hclosed
      exact .closed turn status hdata hopen hcoordinate hpending
    | contextCheckpoint data =>
      obtain ⟨hopen, -, rfl, -⟩ := (foldRecord_checkpoint hdata).1 h
      exact .checkpoint (isCheckpoint_iff.2 ⟨data, hdata⟩) hopen
    | deferredRunClosed data =>
      obtain ⟨hopen, rfl, -⟩ := (foldRecord_deferredRunClosed hdata).1 h
      exact .runClosed data hdata hopen
    | _ => simp [hdata, RecordData.inTurn] at hin

/-- A record opens an operation, settles one, or leaves the pending one alone. -/
theorem nextPending_cases (record : DurableTranscriptRecord) :
    (∃ opened, record.openedOperation = some opened ∧ record.data.settlement = none ∧
      ∀ turn, nextPending turn record = some opened) ∨
    (∃ operationId settlement, record.openedOperation = none ∧
      record.data.settlement = some (operationId, settlement) ∧
      ∀ turn, nextPending turn record = none) ∨
    (record.openedOperation = none ∧ record.data.settlement = none ∧
      ∀ turn, nextPending turn record = turn.pending) := by
  obtain ⟨recordId, sequence, coordinate, data⟩ := record
  cases data with
  | deferredOpened data => exact Or.inl ⟨_, rfl, rfl, fun _ => rfl⟩
  | deferredCompleted data => exact Or.inr (Or.inl ⟨_, _, rfl, rfl, fun _ => rfl⟩)
  | deferredAbandoned data => exact Or.inr (Or.inl ⟨_, _, rfl, rfl, fun _ => rfl⟩)
  | _ => exact Or.inr (Or.inr ⟨rfl, rfl, fun _ => rfl⟩)

/-- The pending operation of a turn that may just be opening is the open turn's. -/
theorem pending_getD {openTurn : Option OpenTurn} {coordinate : RunCoordinate}
    {origin : RecordOf DeferredOpened}
    (h : (openTurn.getD (OpenTurn.fresh coordinate)).pending = some origin) :
    ∃ turn, openTurn = some turn ∧ turn.pending = some origin := by
  cases openTurn with
  | none => cases h
  | some turn => exact ⟨turn, rfl, h⟩

theorem inTurn_keeps {targetRevision : Option TranscriptRevision}
    {st : ScanState} {record : DurableTranscriptRecord} {openTurn : Option OpenTurn}
    {messages : List DurableTranscriptMessage} (h : record.data.inTurn = true) :
    (st.advance targetRevision record openTurn messages).closedDeferredRuns =
        st.closedDeferredRuns ∧
      (st.advance targetRevision record openTurn messages).lastClosedTurns =
        st.lastClosedTurns := by
  rw [advance_closedDeferredRuns, advance_lastClosedTurns]
  cases hdata : record.data with
  | turnClosed _ => simp [hdata, RecordData.inTurn] at h
  | contextCheckpoint _ => simp [hdata, RecordData.inTurn] at h
  | deferredRunClosed _ => simp [hdata, RecordData.inTurn] at h
  | _ => exact ⟨rfl, rfl⟩

theorem openedOperation_inTurn {record : DurableTranscriptRecord}
    (h : ¬ record.data.inTurn = true) :
    record.openedOperation = none ∧ record.data.settlement = none := by
  obtain ⟨recordId, sequence, coordinate, data⟩ := record
  cases data <;> simp [RecordData.inTurn] at h <;> exact ⟨rfl, rfl⟩

/-- A turn record preserves coherence. -/
theorem ScanState.Coherent.turnStep {targetRevision : Option TranscriptRevision} {st : ScanState}
    (h : st.Coherent) {record : DurableTranscriptRecord} {turn : OpenTurn}
    {messages : List DurableTranscriptMessage} (htracks : Tracks st record)
    (hin : record.data.inTurn = true)
    (hcoordinate : (st.openTurn.getD (OpenTurn.fresh record.coordinate)).coordinate =
      record.coordinate)
    (hstep : TurnStep (st.openTurn.getD (OpenTurn.fresh record.coordinate)) record turn) :
    (st.advance targetRevision record (some turn) messages).Coherent := by
  obtain ⟨hclosed, hlast⟩ := @inTurn_keeps targetRevision st record (some turn) messages hin
  have hcoord : turn.coordinate = record.coordinate := hstep.coordinate.trans hcoordinate
  have hopen : ∀ turn₁, st.openTurn = some turn₁ → turn₁.coordinate = record.coordinate := by
    intro turn₁ h₁
    rw [h₁] at hcoordinate
    exact hcoordinate
  constructor
  case head => exact h.head
  case open_run =>
    rintro _ ⟨⟩
    rw [hclosed, hcoord]
    exact htracks.run_open
  case calls_distinct =>
    rintro _ ⟨⟩
    refine hstep.distinct ?_
    cases hturn : st.openTurn with
    | none => exact List.nodup_nil
    | some turn₁ => exact h.calls_distinct turn₁ hturn
  case pending_latest =>
    rintro _ origin ⟨⟩ hpending
    rw [hstep.pending] at hpending
    rw [advance_latestDeferredOrigins, hcoord]
    rcases nextPending_cases record with ⟨opened, ho, -, hn⟩ | ⟨_, _, ho, -, hn⟩ | ⟨ho, -, hn⟩
    · rw [hn, Option.some.injEq] at hpending
      simp only [ho, OrderedMap.get?_set_self, hpending]
    · rw [hn] at hpending
      cases hpending
    · rw [hn] at hpending
      obtain ⟨turn₁, hturn, hpending⟩ := pending_getD hpending
      simp only [ho, ← hopen turn₁ hturn]
      exact h.pending_latest turn₁ origin hturn hpending
  case origin_settled =>
    intro runId origin horigin
    rw [advance_latestDeferredOrigins] at horigin
    rw [advance_deferredSettlements, advance_openTurn]
    rcases nextPending_cases record with ⟨opened, ho, hs, hn⟩ | ⟨op, s, ho, hs, hn⟩ | ⟨ho, hs, hn⟩
    · simp only [ho, OrderedMap.get?_set] at horigin
      split at horigin
      · cases horigin
        exact Or.inr ⟨turn, rfl, by rw [hstep.pending, hn]⟩
      · rcases h.origin_settled runId origin horigin with hset | ⟨turn₁, hturn, hpending⟩
        · exact Or.inl (by simpa only [hs] using hset)
        · have hnone := hstep.opens (by rw [ho]; rfl)
          rw [hturn, Option.getD_some, hpending] at hnone
          cases hnone
    · simp only [ho] at horigin
      left
      simp only [hs, OrderedMap.get?_set]
      rcases h.origin_settled runId origin horigin with ⟨settlement, hset⟩ | ⟨turn₁, hturn, hp⟩
      · split
        · exact ⟨s, rfl⟩
        · exact ⟨settlement, hset⟩
      · obtain ⟨opened, hpending, hid⟩ := hstep.settles op s hs
        rw [hturn, Option.getD_some, hp, Option.some.injEq] at hpending
        rw [hpending, if_pos hid.symm]
        exact ⟨s, rfl⟩
    · simp only [ho] at horigin
      rcases h.origin_settled runId origin horigin with hset | ⟨turn₁, hturn, hpending⟩
      · exact Or.inl (by simpa only [hs] using hset)
      · refine Or.inr ⟨turn, rfl, ?_⟩
        rw [hstep.pending, hn, hturn]
        exact hpending
  case origin_closure =>
    intro runId origin horigin
    rw [advance_latestDeferredOrigins] at horigin
    rw [hlast, advance_openTurn]
    have hold : ∀ origin, st.latestDeferredOrigins.get? runId = some origin →
        (∃ closure, st.lastClosedTurns.get? runId = some closure) ∨
          ∃ turn', some turn = some turn' ∧ turn'.coordinate.runId = runId := by
      intro origin ho
      rcases h.origin_closure runId origin ho with hc | ⟨turn₁, hturn, hrun⟩
      · exact Or.inl hc
      · exact Or.inr ⟨turn, rfl, by rw [hcoord, ← hopen turn₁ hturn, hrun]⟩
    split at horigin
    · rw [OrderedMap.get?_set] at horigin
      split at horigin
      · rename_i hrun
        exact Or.inr ⟨turn, rfl, by rw [hcoord, hrun]⟩
      · exact hold origin horigin
    · exact hold origin horigin
  case closure_run =>
    rw [hlast]
    exact h.closure_run

/-- A record behind a closed turn, or closing it, preserves coherence. -/
theorem ScanState.Coherent.closeStep {targetRevision : Option TranscriptRevision} {st : ScanState}
    (h : st.Coherent) {record : DurableTranscriptRecord}
    {messages : List DurableTranscriptMessage} (hin : ¬ record.data.inTurn = true)
    (hpending : ∀ turn, st.openTurn = some turn → turn.pending = none)
    (hlast : ∀ runId, (∃ closure, st.lastClosedTurns.get? runId = some closure) ∨
      (∃ turn, st.openTurn = some turn ∧ turn.coordinate.runId = runId) →
        ∃ closure, (st.advance targetRevision record none messages).lastClosedTurns.get? runId =
          some closure)
    (hrun : ∀ runId closure,
      (st.advance targetRevision record none messages).lastClosedTurns.get? runId = some closure →
        closure.coordinate.runId = runId) :
    (st.advance targetRevision record none messages).Coherent := by
  obtain ⟨ho, hs⟩ := openedOperation_inTurn hin
  constructor
  case head => exact h.head
  case open_run => rintro turn ⟨⟩
  case calls_distinct => rintro turn ⟨⟩
  case pending_latest => rintro turn origin ⟨⟩
  case origin_settled =>
    intro runId origin horigin
    rw [advance_latestDeferredOrigins] at horigin
    rw [advance_deferredSettlements]
    simp only [ho] at horigin
    simp only [hs]
    rcases h.origin_settled runId origin horigin with hset | ⟨turn, hturn, hp⟩
    · exact Or.inl hset
    · rw [hpending turn hturn] at hp
      cases hp
  case origin_closure =>
    intro runId origin horigin
    rw [advance_latestDeferredOrigins] at horigin
    simp only [ho] at horigin
    exact Or.inl (hlast runId (h.origin_closure runId origin horigin))
  case closure_run => exact hrun

theorem ScanState.Coherent.advance {targetRevision : Option TranscriptRevision} {st : ScanState}
    (h : st.Coherent) {record : DurableTranscriptRecord} {openTurn : Option OpenTurn}
    {messages : List DurableTranscriptMessage} (htracks : Tracks st record)
    (hfold : Folded record st.openTurn openTurn) :
    (st.advance targetRevision record openTurn messages).Coherent := by
  cases hfold with
  | turn turn hin hcoordinate hstep => exact h.turnStep htracks hin hcoordinate hstep
  | closed turn status hdata hopen hcoordinate hpending =>
    have hlast : (st.advance targetRevision record none messages).lastClosedTurns =
        st.lastClosedTurns.set record.coordinate.runId
          ⟨record.coordinate, status, turn.assistantStopReason⟩ := by
      rw [advance_lastClosedTurns, hdata, hopen]
    refine h.closeStep (by simp [hdata, RecordData.inTurn]) ?_ ?_ ?_
    · intro turn₁ hturn
      rw [hopen, Option.some.injEq] at hturn
      exact hturn ▸ hpending
    · intro runId hor
      rw [hlast, OrderedMap.get?_set]
      split
      · exact ⟨_, rfl⟩
      · rename_i hne
        rcases hor with hc | ⟨turn₁, hturn, hrun⟩
        · exact hc
        · rw [hopen, Option.some.injEq] at hturn
          rw [← hturn, hcoordinate] at hrun
          exact absurd hrun hne
    · intro runId closure hclosure
      rw [hlast, OrderedMap.get?_set] at hclosure
      split at hclosure
      · rename_i hrun
        cases hclosure
        exact hrun
      · exact h.closure_run runId closure hclosure
  | checkpoint hdata hopen =>
    obtain ⟨data, hdata⟩ := isCheckpoint_iff.1 hdata
    have hlast : (st.advance targetRevision record none messages).lastClosedTurns =
        st.lastClosedTurns := by
      rw [advance_lastClosedTurns, hdata]
    refine h.closeStep (by simp [hdata, RecordData.inTurn]) ?_ ?_ ?_
    · rw [hopen]; rintro _ ⟨⟩
    · rintro runId (hc | ⟨turn, hturn, -⟩)
      · rw [hlast]; exact hc
      · rw [hopen] at hturn; cases hturn
    · rw [hlast]; exact h.closure_run
  | runClosed data hdata hopen =>
    have hlast : (st.advance targetRevision record none messages).lastClosedTurns =
        st.lastClosedTurns := by
      rw [advance_lastClosedTurns, hdata]
    refine h.closeStep (by simp [hdata, RecordData.inTurn]) ?_ ?_ ?_
    · rw [hopen]; rintro _ ⟨⟩
    · rintro runId (hc | ⟨turn, hturn, -⟩)
      · rw [hlast]; exact hc
      · rw [hopen] at hturn; cases hturn
    · rw [hlast]; exact h.closure_run

/-- Every step of a scan preserves coherence. -/
theorem ScanState.Coherent.step {limits : TranscriptLimits} {stream : StreamKey}
    {targetRevision : Option TranscriptRevision} {st st' : ScanState}
    {record : DurableTranscriptRecord} (h : st.Coherent)
    (hstep : stepRecord limits stream targetRevision st record = .ok st') : st'.Coherent := by
  obtain ⟨hadmits, htracks, openTurn, messages, hfold, rfl⟩ := stepRecord_eq_ok_iff.1 hstep
  exact (h.admitted hadmits.sequence).advance ⟨htracks.run_open, htracks.deferred⟩ (folded_of_ok hfold)

/-- Every state a scan ends in is coherent. -/
theorem coherent_scan {limits : TranscriptLimits} {stream : StreamKey}
    {targetRevision : Option TranscriptRevision} {records : List DurableTranscriptRecord}
    {st : ScanState} (h : scanLog limits stream targetRevision records = .ok st) :
    st.Coherent := by
  refine scanLog_invariant ScanState.Coherent ?_ ?_ ?_ (fun _ _ _ hc hs => ScanState.Coherent.step hc hs) h
  · exact coherent_of_empty rfl rfl rfl nofun
  · intro sequence
    exact coherent_of_empty rfl rfl rfl nofun
  · intro source hadmits hdata
    refine coherent_of_empty rfl rfl rfl ?_
    rintro sequence ⟨⟩
    rfl

end OpenGameAgent
