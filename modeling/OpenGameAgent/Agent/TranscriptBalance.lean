import OpenGameAgent.Agent.TranscriptInvariants
import OpenGameAgent.Library.Dialogue

/-!
# Balanced histories

The history a scan folds is a dialogue of Tool calls and Tool results.  The calls open
in it are the ones the open turn has not completed, so with no turn open every call is
answered and `safeRetainedBoundaries` accepts the history.

* `DurableTranscriptMessage.move` — a message as a move of a dialogue.
* `safeRetainedBoundaries_eq_ok_iff` — what the loop accepts, and the boundaries it
  returns: the places where no call is open.
* `ScanState.Balanced` — the invariant that ties the history to the open turn.
-/

namespace OpenGameAgent

open Dialogue

/-! ## A history as a dialogue -/

/-- A Tool call asks, by its id and name, and a Tool result answers. -/
def DurableTranscriptMessage.move : DurableTranscriptMessage → Move (String × String)
  | .user _ => .ask []
  | .assistant m => .ask (pendingCalls m)
  | .toolResult m => .answer (m.toolCallId, m.toolName)

/-- The moves of a history. -/
def moves (messages : List DurableTranscriptMessage) : List (Move (String × String)) :=
  messages.map DurableTranscriptMessage.move

/-- A history whose Tool calls are all answered in their order. -/
def BalancedHistory (messages : List DurableTranscriptMessage) : Prop :=
  Balanced (moves messages)

@[simp] theorem moves_nil : moves [] = [] := rfl

@[simp] theorem moves_cons (message : DurableTranscriptMessage)
    (rest : List DurableTranscriptMessage) :
    moves (message :: rest) = message.move :: moves rest := rfl

/-- The places of a history behind which no call is open, counted on from `index`. -/
def boundariesFrom (pending : List (String × String)) (index : Nat) :
    List DurableTranscriptMessage → List Nat
  | [] => []
  | message :: rest =>
    match step pending message.move with
    | none => []
    | some next =>
      if next.isEmpty then (index + 1) :: boundariesFrom next (index + 1) rest
      else boundariesFrom next (index + 1) rest

/-- The loop accepts what leaves no call open, and returns the places without one. -/
theorem retainedBoundaries_eq_ok_iff {pending : List (String × String)} {index : Nat}
    {messages : List DurableTranscriptMessage} {boundaries : List Nat} :
    retainedBoundaries pending index messages = .ok boundaries ↔
      after pending (moves messages) = some [] ∧
        boundaries = boundariesFrom pending index messages := by
  induction messages generalizing pending index boundaries with
  | nil =>
    cases pending <;> simp [retainedBoundaries, boundariesFrom, eq_comm]
  | cons message rest ih =>
    have hnext : ∀ next : List (String × String),
        (do
          let boundaries ← retainedBoundaries next (index + 1) rest
          return if next.isEmpty then (index + 1) :: boundaries else boundaries) =
            .ok boundaries ↔
          after next (moves rest) = some [] ∧
            boundaries = if next.isEmpty then (index + 1) :: boundariesFrom next (index + 1) rest
              else boundariesFrom next (index + 1) rest := by
      intro next
      rw [bind_eq_ok]
      constructor
      · rintro ⟨later, hlater, h⟩
        obtain ⟨hafter, rfl⟩ := ih.1 hlater
        exact ⟨hafter, return_eq_ok.1 h⟩
      · rintro ⟨hafter, rfl⟩
        exact ⟨_, ih.2 ⟨hafter, rfl⟩, rfl⟩
    rw [moves_cons, after_cons, boundariesFrom]
    cases pending with
    | nil =>
      cases message with
      | user m => exact hnext []
      | assistant m => exact hnext (pendingCalls m)
      | toolResult m => simp [retainedBoundaries, DurableTranscriptMessage.move, step]
    | cons expected later =>
      cases message with
      | user m => simp [retainedBoundaries, DurableTranscriptMessage.move, step]
      | assistant m => simp [retainedBoundaries, DurableTranscriptMessage.move, step]
      | toolResult m =>
        by_cases hdue : (m.toolCallId, m.toolName) = expected
        · rw [retainedBoundaries, if_pos hdue, DurableTranscriptMessage.move, hdue,
            step_answer_self]
          exact hnext later
        · simp [retainedBoundaries, DurableTranscriptMessage.move, step, hdue]

theorem safeRetainedBoundaries_eq_ok_iff {messages : List DurableTranscriptMessage}
    {boundaries : List Nat} :
    safeRetainedBoundaries messages = .ok boundaries ↔
      BalancedHistory messages ∧ boundaries = boundariesFrom [] 0 messages :=
  retainedBoundaries_eq_ok_iff

/-- A history is accepted when it is balanced. -/
theorem balancedHistory_iff {messages : List DurableTranscriptMessage} :
    BalancedHistory messages ↔ ∃ boundaries, safeRetainedBoundaries messages = .ok boundaries := by
  simp [safeRetainedBoundaries_eq_ok_iff]

theorem mem_boundariesFrom {pending : List (String × String)} {index b : Nat}
    {messages : List DurableTranscriptMessage} (hb : b ∈ boundariesFrom pending index messages) :
    ∃ n, b = index + n ∧ after pending (moves (messages.take n)) = some [] := by
  induction messages generalizing pending index with
  | nil => cases hb
  | cons message rest ih =>
    rw [boundariesFrom] at hb
    cases hstep : step pending message.move with
    | none =>
      rw [hstep] at hb
      cases hb
    | some next =>
      rw [hstep] at hb
      have hlater : b ∈ boundariesFrom next (index + 1) rest →
          ∃ n, b = index + n ∧ after pending (moves ((message :: rest).take n)) = some [] := by
        intro hrest
        obtain ⟨n, rfl, hn⟩ := ih hrest
        refine ⟨n + 1, by omega, ?_⟩
        rw [List.take_succ_cons, moves_cons, after_cons, hstep]
        exact hn
      dsimp only at hb
      split at hb
      · rename_i hempty
        rcases List.mem_cons.1 hb with rfl | hb
        · refine ⟨1, rfl, ?_⟩
          rw [List.isEmpty_iff.1 hempty] at hstep
          rw [List.take_succ_cons, List.take_zero, moves_cons, after_cons, hstep]
          rfl
        · exact hlater hb
      · exact hlater hb

/-- A balanced history is balanced from each of its boundaries on. -/
theorem BalancedHistory.drop {messages : List DurableTranscriptMessage} {boundaries : List Nat}
    (h : safeRetainedBoundaries messages = .ok boundaries) {b : Nat} (hb : b ∈ boundaries) :
    BalancedHistory (messages.drop b) := by
  obtain ⟨hbalanced, rfl⟩ := safeRetainedBoundaries_eq_ok_iff.1 h
  obtain ⟨n, rfl, hn⟩ := mem_boundariesFrom hb
  rw [Nat.zero_add, BalancedHistory, moves, List.map_drop]
  refine Balanced.drop ?_ hbalanced
  rw [moves, List.map_take] at hn
  exact hn

/-- A message that calls no Tool may stand before a balanced history. -/
theorem BalancedHistory.cons_user {messages : List DurableTranscriptMessage}
    (h : BalancedHistory messages) (message : UserMessage) :
    BalancedHistory (.user message :: messages) :=
  Balanced.cons h

/-- The history a checkpoint puts in place is balanced. -/
theorem boundary_balanced {checkpoint source : DurableTranscriptRecord} {data : ContextCheckpoint}
    (h : assertExactTranscriptCheckpointBoundary checkpoint data source = .ok ()) :
    BalancedHistory data.replacement := by
  unfold assertExactTranscriptCheckpointBoundary at h
  split at h
  · split at h
    · obtain ⟨boundaries, hboundaries, -⟩ := bind_eq_ok.1 h
      exact balancedHistory_iff.2 ⟨boundaries, hboundaries⟩
    · cases h
  · cases h

/-! ## The calls of the open turn -/

/-- The calls without a result, as the results must name them. -/
def unansweredCalls (calls : List OpenToolCall) : List (String × String) :=
  (calls.filter fun tool => !tool.completed).map fun tool => (tool.call.id, tool.call.name)

/-- The calls of the open turn without a result. -/
def unanswered : Option OpenTurn → List (String × String)
  | none => []
  | some turn => unansweredCalls turn.toolCalls

/-- The calls of an assistant message are all unanswered. -/
theorem unansweredCalls_openToolCalls (recordId : String) (message : AssistantMessage) :
    unansweredCalls (openToolCalls recordId message) = pendingCalls message := by
  unfold openToolCalls pendingCalls
  generalize 0 = index
  induction message.content generalizing index with
  | nil => rfl
  | cons part rest ih =>
    cases part with
    | toolCall call =>
      rw [openToolCallsFrom, List.filterMap_cons, ← ih (index + 1)]
      rfl
    | text _ => exact ih (index + 1)
    | thinking _ => exact ih (index + 1)

/-- A result answers the call that is first in line. -/
theorem unansweredCalls_complete {calls : List OpenToolCall} {index : Nat} {tool : OpenToolCall}
    (hfirst : calls.findIdx? (fun tool => !tool.completed) = some index)
    (htool : calls[index]? = some tool) :
    unansweredCalls calls = (tool.call.id, tool.call.name) ::
      unansweredCalls (calls.set index { tool with completed := true }) := by
  induction calls generalizing index with
  | nil => cases hfirst
  | cons head rest ih =>
    rw [List.findIdx?_cons] at hfirst
    cases hcompleted : head.completed with
    | false =>
      rw [hcompleted] at hfirst
      cases hfirst
      cases htool
      simp [unansweredCalls, hcompleted]
    | true =>
      rw [hcompleted] at hfirst
      obtain ⟨i, hi, rfl⟩ := Option.map_eq_some_iff.1 hfirst
      have hrest := ih hi (by simpa using htool)
      simpa [unansweredCalls, hcompleted] using hrest

/-- A start answers nothing. -/
theorem unansweredCalls_start {calls : List OpenToolCall} {index : Nat} {tool : OpenToolCall}
    (htool : calls[index]? = some tool) (start : Option (RecordOf ToolStarted)) :
    unansweredCalls (calls.set index { tool with start := start }) = unansweredCalls calls := by
  induction calls generalizing index with
  | nil => rfl
  | cons head rest ih =>
    cases index with
    | zero =>
      cases htool
      cases hcompleted : tool.completed <;> simp [unansweredCalls, hcompleted]
    | succ index =>
      have hrest := ih (by simpa using htool)
      cases hcompleted : head.completed <;>
        simpa [unansweredCalls, hcompleted] using hrest

/-- The order of a turn: no calls before its assistant message, and no assistant message
before its provider operation is settled. -/
structure OpenTurn.Orderly (turn : OpenTurn) : Prop where
  calls : turn.assistantRecordId = none → turn.toolCalls = []
  waiting : turn.pending.isSome = true → turn.assistantRecordId = none

theorem orderly_fresh (coordinate : RunCoordinate) : (OpenTurn.fresh coordinate).Orderly :=
  ⟨fun _ => rfl, fun _ => rfl⟩

/-- What a record of a turn adds to the history is the next move of the dialogue. -/
theorem foldTurnRecord_dialogue {turn turn' : OpenTurn} {record : DurableTranscriptRecord}
    (horderly : turn.Orderly) (h : foldTurnRecord turn record = .ok turn') :
    turn'.Orderly ∧
      after (unansweredCalls turn.toolCalls) (moves record.data.appendedMessage.toList) =
        some (unansweredCalls turn'.toolCalls) := by
  obtain ⟨recordId, sequence, coordinate, data⟩ := record
  cases data with
  | userCompleted message =>
    obtain ⟨hassistant, -, rfl⟩ := foldUserMessage_eq_ok_iff.1 h
    refine ⟨⟨horderly.calls, horderly.waiting⟩, ?_⟩
    dsimp only
    rw [horderly.calls hassistant]
    rfl
  | assistantCompleted message =>
    obtain ⟨hassistant, hdeferred, rfl⟩ := foldAssistantMessage_eq_ok_iff.1 h
    refine ⟨⟨nofun, ?_⟩, ?_⟩
    · intro hpending
      have hnone : (turn.withAssistant recordId message).pending = none :=
        pending_of_deferred_none hdeferred
      rw [hnone] at hpending
      cases hpending
    · rw [horderly.calls hassistant, OpenTurn.withAssistant, unansweredCalls_openToolCalls]
      rfl
  | toolStarted data =>
    obtain ⟨index, tool, hnames, -, -, rfl⟩ := foldToolStarted_eq_ok_iff.1 h
    refine ⟨⟨?_, horderly.waiting⟩, ?_⟩
    · intro hassistant
      dsimp only
      rw [horderly.calls hassistant]
      rfl
    · dsimp only
      rw [unansweredCalls_start hnames.at_index]
      rfl
  | toolCompleted data =>
    obtain ⟨index, tool, hfirst, hnames, -, -, rfl⟩ := foldToolCompleted_eq_ok_iff.1 h
    refine ⟨⟨?_, horderly.waiting⟩, ?_⟩
    · intro hassistant
      dsimp only
      rw [horderly.calls hassistant]
      rfl
    · rw [unansweredCalls_complete hfirst hnames.at_index, hnames.id, hnames.name]
      simp [RecordData.appendedMessage, DurableTranscriptMessage.move]
  | deferredOpened data =>
    obtain ⟨hassistant, -, rfl⟩ := foldDeferredOpened_eq_ok_iff.1 h
    exact ⟨⟨horderly.calls, fun _ => hassistant⟩, rfl⟩
  | deferredCompleted data =>
    obtain ⟨opened, hpending, -, -, -, -, -, rfl⟩ := foldDeferredCompleted_eq_ok_iff.1 h
    have hassistant := horderly.waiting (by rw [hpending]; rfl)
    refine ⟨⟨nofun, nofun⟩, ?_⟩
    rw [horderly.calls hassistant, OpenTurn.withAssistant, unansweredCalls_openToolCalls]
    rfl
  | deferredAbandoned data =>
    obtain ⟨opened, -, -, -, rfl⟩ := foldDeferredAbandoned_eq_ok_iff.1 h
    exact ⟨⟨horderly.calls, nofun⟩, rfl⟩
  | turnClosed _ =>
    cases h
    exact ⟨horderly, rfl⟩
  | contextCheckpoint _ =>
    cases h
    exact ⟨horderly, rfl⟩
  | deferredRunClosed _ =>
    cases h
    exact ⟨horderly, rfl⟩

/-! ## The history of a scan -/

/-- The calls open in the history of a scan are those of its open turn. -/
structure ScanState.Balanced (st : ScanState) : Prop where
  history : after [] (moves st.durableMessages) = some (unanswered st.openTurn)
  orderly : ∀ turn, st.openTurn = some turn → turn.Orderly

theorem balanced_of_closed {st : ScanState} (hopen : st.openTurn = none)
    (hhistory : BalancedHistory st.durableMessages) : st.Balanced := by
  constructor
  case history =>
    rw [hopen]
    exact hhistory
  case orderly =>
    intro turn hturn
    rw [hopen] at hturn
    cases hturn

/-- Every record keeps the history balanced. -/
theorem ScanState.Balanced.step {limits : TranscriptLimits} {stream : StreamKey}
    {targetRevision : Option TranscriptRevision} {st st' : ScanState}
    {record : DurableTranscriptRecord} (h : st.Balanced)
    (hstep : stepRecord limits stream targetRevision st record = .ok st') : st'.Balanced := by
  obtain ⟨-, -, openTurn, messages, hfold, rfl⟩ := stepRecord_eq_ok_iff.1 hstep
  by_cases hin : record.data.inTurn = true
  · obtain ⟨-, turn, hturn, rfl, rfl⟩ := (foldRecord_inTurn hin).1 hfold
    have hcurrent : (st.openTurn.getD (OpenTurn.fresh record.coordinate)).Orderly ∧
        unansweredCalls (st.openTurn.getD (OpenTurn.fresh record.coordinate)).toolCalls =
          unanswered st.openTurn := by
      cases hopen : st.openTurn with
      | none => exact ⟨orderly_fresh _, rfl⟩
      | some current => exact ⟨h.orderly current hopen, rfl⟩
    obtain ⟨horderly, hafter⟩ := foldTurnRecord_dialogue hcurrent.1 hturn
    rw [hcurrent.2] at hafter
    refine ⟨?_, fun _ hsame => ?_⟩
    · rw [advance_durableMessages, advance_openTurn, moves, List.map_append, after_append, ← moves,
        h.history]
      exact hafter
    · rw [advance_openTurn, Option.some.injEq] at hsame
      exact hsame ▸ horderly
  · cases hdata : record.data with
    | turnClosed status =>
      obtain ⟨hclosed, rfl, rfl⟩ := (foldRecord_turnClosed hdata).1 hfold
      obtain ⟨turn, hopen, -, -, hcompleted, -⟩ := foldTurnClosed_eq_ok_iff.1 hclosed
      refine balanced_of_closed rfl ?_
      have hnone : unansweredCalls turn.toolCalls = [] := by
        rw [unansweredCalls, List.map_eq_nil_iff, List.filter_eq_nil_iff]
        intro tool htool
        simp [hcompleted tool htool]
      have hhistory := h.history
      rw [hopen, unanswered, hnone] at hhistory
      exact hhistory
    | contextCheckpoint data =>
      obtain ⟨-, ⟨source, -, hboundary⟩, rfl, rfl⟩ := (foldRecord_checkpoint hdata).1 hfold
      exact balanced_of_closed rfl (boundary_balanced hboundary)
    | deferredRunClosed data =>
      obtain ⟨hopen, rfl, rfl⟩ := (foldRecord_deferredRunClosed hdata).1 hfold
      refine balanced_of_closed rfl ?_
      have hhistory := h.history
      rw [hopen] at hhistory
      exact hhistory
    | _ => simp [hdata, RecordData.inTurn] at hin

/-- The history is balanced in every state a scan ends in. -/
theorem balanced_scan {limits : TranscriptLimits} {stream : StreamKey}
    {targetRevision : Option TranscriptRevision} {records : List DurableTranscriptRecord}
    {st : ScanState} (h : scanLog limits stream targetRevision records = .ok st) :
    st.Balanced := by
  refine scanLog_invariant ScanState.Balanced ?_ ?_ ?_ (fun _ _ _ hb hs => hb.step hs) h
  · exact balanced_of_closed rfl rfl
  · intro sequence
    exact balanced_of_closed rfl rfl
  · intro source _ _
    exact balanced_of_closed rfl rfl

/-- A state that the scan of a log passes through: it ends the scan of a beginning of the
log, or stands behind the retained source of a purged log. -/
def ScanReaches (limits : TranscriptLimits) (stream : StreamKey)
    (targetRevision : Option TranscriptRevision) (records : List DurableTranscriptRecord)
    (s : ScanState) : Prop :=
  ∃ front back, records = front ++ back ∧
    (scanLog limits stream targetRevision front = .ok s ∨
      ∃ source, front = [source] ∧ s = ScanState.retained targetRevision source)

/-- The history is balanced in every state a scan passes through. -/
theorem ScanReaches.balanced {limits : TranscriptLimits} {stream : StreamKey}
    {targetRevision : Option TranscriptRevision} {records : List DurableTranscriptRecord}
    {s : ScanState} (h : ScanReaches limits stream targetRevision records s) : s.Balanced := by
  obtain ⟨front, back, -, hscan | ⟨source, -, rfl⟩⟩ := h
  · exact balanced_scan hscan
  · exact balanced_of_closed rfl rfl

/-- With no turn open every Tool call of the history is answered. -/
theorem ScanState.Balanced.closed {st : ScanState} (h : st.Balanced) (hopen : st.openTurn = none) :
    BalancedHistory st.durableMessages := by
  have hhistory := h.history
  rw [hopen] at hhistory
  exact hhistory

end OpenGameAgent
