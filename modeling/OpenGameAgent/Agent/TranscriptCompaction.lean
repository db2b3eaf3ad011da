import OpenGameAgent.Agent.TranscriptBalance
import OpenGameAgent.Agent.TranscriptRestore

/-!
# Compacting a history

`TranscriptCompactor.prepare` of `packages/agent/src/transcript-compaction.ts` and
`DurableTranscript.checkpoint`, which stores what it prepares.

A compaction replaces the beginning of the history by a summary.  The cut is one of the
safe boundaries, so no Tool call is separated from its result.

* `prepare` — the plan of a compaction; the counter and the summarizer of the host are
  fields of `CompactionHost`.
* `checkpointWith` — `checkpoint` over any check of the replacement, to say what the
  check rejects.
* `history_balanced` — histories of scans are balanced, and so are prepared plans.
-/

namespace OpenGameAgent

/-! ## The summary -/

/-- A number from outside: none where it is no integer. -/
abbrev HostNumber := Option Int

def isSafeInteger (value : Int) : Bool :=
  -(maxSafeInteger : Int) ≤ value && value ≤ maxSafeInteger

/-- `positiveSafeInteger`. -/
def positiveSafeInteger (name : String) : HostNumber → Except TranscriptError Nat
  | some value =>
    if isSafeInteger value && 0 < value then .ok value.toNat
    else .error (.type (name ++ " must be a positive safe integer."))
  | none => .error (.type (name ++ " must be a positive safe integer."))

/-- `nonNegativeSafeInteger`. -/
def nonNegativeSafeInteger (name : String) : HostNumber → Except TranscriptError Nat
  | some value =>
    if isSafeInteger value && 0 ≤ value then .ok value.toNat
    else .error (.type (name ++ " must be a non-negative safe integer."))
  | none => .error (.type (name ++ " must be a non-negative safe integer."))

/-- The stop reasons of a provider's assistant message. -/
inductive ProviderStopReason where
  | stop | length | toolUse | error | aborted
  deriving DecidableEq, Repr

/-- A part of a provider's assistant message, as far as a summary reads it. -/
inductive ProviderContent where
  | text (text : String) (textSignature : Option String)
  | thinking (thinkingSignature : Option String) (redacted : Option Bool)
  | toolCall

/-- A provider's assistant message, as far as a summary reads it. -/
structure ProviderAssistantMessage where
  content : List ProviderContent
  usageOutput : HostNumber
  stopReason : ProviderStopReason
  timestamp : Int

/-- The user message of a summary, with its text parts. -/
structure TranscriptSummary where
  content : List String
  timestamp : Int

def TranscriptSummary.message (summary : TranscriptSummary) : DurableTranscriptMessage :=
  .user (.parts (summary.content.map .text) summary.timestamp)

/-- Is a signature given and not empty? -/
def isSigned (signature : Option String) : Bool :=
  signature.any fun text => text ≠ ""

/-- The white space and line ends that `String.prototype.trim` removes. -/
def isTrimmed (c : Char) : Bool :=
  [0x9, 0xA, 0xB, 0xC, 0xD, 0x20, 0xA0, 0x1680, 0x2028, 0x2029, 0x202F, 0x205F, 0x3000,
    0xFEFF].contains c.toNat || (0x2000 ≤ c.toNat && c.toNat ≤ 0x200A)

def isBlank (text : String) : Bool :=
  text.toList.all isTrimmed

/-- The loop of `captureSummary` over the parts. -/
def captureSummaryContent : List ProviderContent → Except TranscriptError (List String)
  | [] => .ok []
  | .thinking thinkingSignature redacted :: rest =>
    if isSigned thinkingSignature || redacted = some true then
      .error (.type "The transcript summary contains provider continuation state.")
    else captureSummaryContent rest
  | .toolCall :: _ => .error (.type "The transcript summary must not call Tools.")
  | .text text textSignature :: rest =>
    if isSigned textSignature then
      .error (.type "The transcript summary contains provider continuation state.")
    else do
      let content ← captureSummaryContent rest
      return text :: content

/-- `captureSummary`. -/
def captureSummary (message : ProviderAssistantMessage) (maxOutputTokens : Nat) :
    Except TranscriptError TranscriptSummary :=
  if message.stopReason ≠ .stop then
    .error (.type "The transcript summary is not a completed response.")
  else do
    let outputTokens ← nonNegativeSafeInteger "summary output token count" message.usageOutput
    if outputTokens > maxOutputTokens then
      .error (.range "The transcript summary exceeds its output token budget.")
    else do
      let content ← captureSummaryContent message.content
      if content.all isBlank then .error (.type "The transcript summary is empty.")
      else return ⟨content, message.timestamp⟩

/-! ## Preparing a plan -/

/-- `TranscriptCompactorOptions`; the constructor accepts positive safe integers only. -/
structure TranscriptCompactorOptions where
  reserveTokens : Nat
  maxRetainedContextTokens : Nat
  maxSummaryOutputTokens : Nat

structure TranscriptSummaryRequest where
  messages : List DurableTranscriptMessage
  safeRetainedFrom : List Nat
  maxRetainedContextTokens : Nat
  maxOutputTokens : Nat

structure TranscriptSummaryResult where
  message : ProviderAssistantMessage
  retainedFrom : HostNumber

/-- The host's side of a compaction.  A call that ends with the signal aborted behind it
fails here. -/
structure CompactionHost (P : Type) where
  /-- `countContext` with the model, the prompt and the Tools of the input, call by call. -/
  countContext : Nat → List P → Except TranscriptError HostNumber
  summarize : TranscriptSummaryRequest → Except TranscriptError TranscriptSummaryResult
  /-- `materializeSummary`. -/
  materializeSummary : TranscriptSummary → P

/-- A message as the summarizer sees it: without thinking and replay. -/
def summaryMessage : DurableTranscriptMessage → DurableTranscriptMessage
  | .assistant m =>
    .assistant { m with
      content := m.content.filter fun
        | .thinking _ => false
        | _ => true
      providerReplay := none }
  | message => message

/-- `transcriptSummaryMessages`. -/
def transcriptSummaryMessages (messages : List DurableTranscriptMessage) :
    List DurableTranscriptMessage :=
  messages.map summaryMessage

/-- `TranscriptCompactor.prepare`: the replacement of a plan, or none where the history
fits. -/
def prepare {P : Type} (options : TranscriptCompactorOptions) (host : CompactionHost P)
    (modelContextWindow : HostNumber) (source : List DurableTranscriptMessage)
    (providerSource : List P) :
    Except TranscriptError (Option (List DurableTranscriptMessage)) := do
  let contextWindow ← positiveSafeInteger "model.contextWindow" modelContextWindow
  if contextWindow ≤ options.reserveTokens then
    .error (.range "reserveTokens must be smaller than the selected model context window.")
  else if providerSource.length ≠ source.length then
    .error (.type "The durable and provider transcript histories are not aligned.")
  else do
    let sourceTokens ← host.countContext 0 providerSource
    let admittedSourceTokens ← nonNegativeSafeInteger "context token count" sourceTokens
    if admittedSourceTokens ≤ contextWindow - options.reserveTokens then return none
    else do
      let safeRetainedFrom ← safeRetainedBoundaries source
      let result ← host.summarize {
        messages := transcriptSummaryMessages source
        safeRetainedFrom
        maxRetainedContextTokens := options.maxRetainedContextTokens
        maxOutputTokens := options.maxSummaryOutputTokens }
      match safeRetainedFrom.find? (fun boundary => result.retainedFrom = some (Int.ofNat boundary)) with
      | none =>
        .error (.type "The transcript summarizer selected an invalid retained boundary.")
      | some retainedFrom => do
        let summary ← captureSummary result.message options.maxSummaryOutputTokens
        let retained := source.drop retainedFrom
        let providerRetained := providerSource.drop retainedFrom
        let retainedCount ← host.countContext 1 providerRetained
        let retainedTokens ← nonNegativeSafeInteger "retained context token count" retainedCount
        if retainedTokens > options.maxRetainedContextTokens then
          .error (.range "The retained transcript context exceeds its token budget.")
        else do
          let replacement := summary.message :: retained
          let replacementCount ←
            host.countContext 2 (host.materializeSummary summary :: providerRetained)
          let replacementTokens ←
            nonNegativeSafeInteger "replacement context token count" replacementCount
          if replacementTokens > contextWindow - options.reserveTokens then
            .error (.range "The compacted transcript does not leave the required model reserve.")
          else return some replacement

/-- A plan is a summary before the history from one of its safe boundaries on. -/
theorem prepare_eq_some {P : Type} {options : TranscriptCompactorOptions} {host : CompactionHost P}
    {modelContextWindow : HostNumber} {source : List DurableTranscriptMessage}
    {providerSource : List P} {replacement : List DurableTranscriptMessage}
    (h : prepare options host modelContextWindow source providerSource = .ok (some replacement)) :
    ∃ boundaries, safeRetainedBoundaries source = .ok boundaries ∧
      ∃ b ∈ boundaries, ∃ summary : TranscriptSummary,
        replacement = summary.message :: source.drop b := by
  unfold prepare at h
  obtain ⟨contextWindow, -, h⟩ := bind_eq_ok.1 h
  split at h
  · cases h
  split at h
  · cases h
  obtain ⟨sourceTokens, -, h⟩ := bind_eq_ok.1 h
  obtain ⟨admittedSourceTokens, -, h⟩ := bind_eq_ok.1 h
  split at h
  · cases h
  obtain ⟨boundaries, hboundaries, h⟩ := bind_eq_ok.1 h
  obtain ⟨result, -, h⟩ := bind_eq_ok.1 h
  split at h
  · cases h
  rename_i b hfound
  obtain ⟨summary, -, h⟩ := bind_eq_ok.1 h
  obtain ⟨retainedCount, -, h⟩ := bind_eq_ok.1 h
  obtain ⟨retainedTokens, -, h⟩ := bind_eq_ok.1 h
  split at h
  · cases h
  obtain ⟨replacementCount, -, h⟩ := bind_eq_ok.1 h
  obtain ⟨replacementTokens, -, h⟩ := bind_eq_ok.1 h
  split at h
  · cases h
  cases h
  exact ⟨boundaries, hboundaries, b, List.mem_of_find?_eq_some hfound, summary, rfl⟩

/-- What a boundary keeps is balanced behind a summary. -/
theorem balanced_replacement {source : List DurableTranscriptMessage} {boundaries : List Nat}
    (h : safeRetainedBoundaries source = .ok boundaries) {b : Nat} (hb : b ∈ boundaries)
    (summary : UserMessage) : BalancedHistory (.user summary :: source.drop b) :=
  (BalancedHistory.drop h hb).cons_user summary

/-! ## Storing a plan -/

/-- Why a checkpoint fails: it is refused before the append, or its append did not complete
(`TranscriptCheckpointCommitError`). -/
inductive CheckpointError where
  | refused (error : TranscriptError)
  | commit (cause : TranscriptError)
  deriving DecidableEq, Repr

structure TranscriptCheckpointResult (α : Type) where
  revision : TranscriptRevision
  records : List DurableTranscriptRecord
  messages : α
  durableMessages : List DurableTranscriptMessage

section Checkpoint

variable {α : Type} (limits : TranscriptLimits) (stream : StreamKey) (host : TranscriptHost α)
  (check : List DurableTranscriptMessage → Except TranscriptError (List Nat))

/-- The checkpoint record that `checkpoint` prepares, with the replacement materialized.
The balance of the replacement is looked at by `check`. -/
def prepareCheckpoint (source : DurableTranscriptRecord)
    (replacement : List DurableTranscriptMessage) :
    Except TranscriptError
      (List DurableTranscriptRecord × List DurableTranscriptMessage × α) := do
  snapshotRecord limits source
  match source.data with
  | .turnClosed .completed => do
    assertEventStreamCoordinate stream source.coordinate
    if replacement.isEmpty then
      .error (.type "A transcript checkpoint requires replacement history.")
    else do
      let _ ← check replacement
      let records ← prepareRecords limits stream (.at source.sequence)
        [⟨source.coordinate, .contextCheckpoint ⟨source.sequence, source.recordId, replacement⟩⟩]
        limits.maxCommitBytes (.range "The durable transcript commit exceeds its budget.")
        limits.maxCommitBytes true host.newRecordId []
      match records.map RecordOf.data with
      | .contextCheckpoint data :: _ => do
        snapshotDurableMessages data.replacement
        let messages ← host.materialize stream data.replacement
        return (records, data.replacement, messages)
      | _ => .error (.type "The durable transcript checkpoint was not prepared.")
  | _ => .error (.type "A transcript checkpoint requires a completed turn closure.")

/-- `DurableTranscript.checkpoint` with a check of its own for the balance. -/
def checkpointWith (stored : TranscriptStoredStream) (source : DurableTranscriptRecord)
    (replacement : List DurableTranscriptMessage) :
    Except CheckpointError (TranscriptCheckpointResult α × TranscriptStoredStream) :=
  match prepareCheckpoint limits stream host check source replacement with
  | .error error => .error (.refused error)
  | .ok (records, durableMessages, messages) =>
    match appendPrepared limits stored (.at source.sequence) records with
    | .error cause => .error (.commit cause)
    | .ok committed => .ok (⟨committed.revision, records, messages, durableMessages⟩, committed)

/-- `DurableTranscript.checkpoint` over the stored stream, with the stream it leaves. -/
def checkpoint (stored : TranscriptStoredStream) (source : DurableTranscriptRecord)
    (replacement : List DurableTranscriptMessage) :
    Except CheckpointError (TranscriptCheckpointResult α × TranscriptStoredStream) :=
  checkpointWith limits stream host safeRetainedBoundaries stored source replacement

end Checkpoint

section Stored

variable {α : Type} {limits : TranscriptLimits} {stream : StreamKey} {host : TranscriptHost α}
  {check : List DurableTranscriptMessage → Except TranscriptError (List Nat)}
  {source : DurableTranscriptRecord} {replacement : List DurableTranscriptMessage}

/-- A prepared checkpoint holds the replacement. -/
theorem prepareCheckpoint_replacement {records : List DurableTranscriptRecord}
    {durableMessages : List DurableTranscriptMessage} {messages : α}
    (h : prepareCheckpoint limits stream host check source replacement =
      .ok (records, durableMessages, messages)) : durableMessages = replacement := by
  unfold prepareCheckpoint at h
  obtain ⟨_, -, h⟩ := bind_eq_ok.1 h
  split at h
  · obtain ⟨_, -, h⟩ := bind_eq_ok.1 h
    split at h
    · cases h
    obtain ⟨_, -, h⟩ := bind_eq_ok.1 h
    obtain ⟨prepared, hprepared, h⟩ := bind_eq_ok.1 h
    rw [prepareRecordsFrom_data hprepared] at h
    obtain ⟨_, -, h⟩ := bind_eq_ok.1 h
    obtain ⟨_, -, h⟩ := bind_eq_ok.1 h
    cases h
    rfl
  · cases h

/-- A replacement that the check lets pass is prepared as if there was no check. -/
theorem prepareCheckpoint_of_check {boundaries : List Nat} (h : check replacement = .ok boundaries) :
    prepareCheckpoint limits stream host check source replacement =
      prepareCheckpoint limits stream host (fun _ => .ok []) source replacement := by
  unfold prepareCheckpoint
  rw [h]
  rfl

/-- The history behind a stored checkpoint is its replacement. -/
theorem checkpoint_replacement {stored stored' : TranscriptStoredStream}
    {result : TranscriptCheckpointResult α}
    (h : checkpoint limits stream host stored source replacement = .ok (result, stored')) :
    result.durableMessages = replacement := by
  unfold checkpoint checkpointWith at h
  split at h
  · cases h
  · rename_i hprepared
    split at h
    · cases h
    · cases h
      exact prepareCheckpoint_replacement hprepared

end Stored

/-- Histories are balanced, and stay so when they are compacted: with no turn open every
state of a scan of an accepted log has a history that `safeRetainedBoundaries` accepts; a
summary before what one of the boundaries keeps is accepted again; so a prepared plan is
never refused for its balance, and it is the history behind the checkpoint. -/
theorem history_balanced {α P : Type} (limits : TranscriptLimits) (stream : StreamKey)
    (transcriptHost : TranscriptHost α) (options : TranscriptCompactorOptions)
    (compactionHost : CompactionHost P) :
    (∀ loaded targetRevision st,
      scanCommittedTranscript limits stream loaded targetRevision = .ok st →
      ∀ s, ScanReaches limits stream targetRevision loaded.records s → s.openTurn = none →
        ∃ boundaries, safeRetainedBoundaries s.durableMessages = .ok boundaries) ∧
    (∀ messages boundaries, safeRetainedBoundaries messages = .ok boundaries →
      ∀ b ∈ boundaries, ∀ summary : UserMessage,
        ∃ again, safeRetainedBoundaries (.user summary :: messages.drop b) = .ok again) ∧
    (∀ modelContextWindow messages providerMessages replacement,
      prepare options compactionHost modelContextWindow messages providerMessages =
        .ok (some replacement) →
      ∀ stored source,
        checkpoint limits stream transcriptHost stored source replacement =
          checkpointWith limits stream transcriptHost (fun _ => .ok []) stored source
            replacement ∧
        ∀ result stored',
          checkpoint limits stream transcriptHost stored source replacement =
            .ok (result, stored') →
          ∃ again, safeRetainedBoundaries result.durableMessages = .ok again) := by
  refine ⟨?_, ?_, ?_⟩
  · intro loaded targetRevision st _ s hreaches hopen
    exact balancedHistory_iff.1 (hreaches.balanced.closed hopen)
  · intro messages boundaries h b hb summary
    exact balancedHistory_iff.1 (balanced_replacement h hb summary)
  · intro modelContextWindow messages providerMessages replacement h stored source
    obtain ⟨boundaries, hboundaries, b, hb, summary, rfl⟩ := prepare_eq_some h
    obtain ⟨again, hagain⟩ : ∃ again, safeRetainedBoundaries
        (summary.message :: messages.drop b) = .ok again :=
      balancedHistory_iff.1 (balanced_replacement hboundaries hb _)
    refine ⟨?_, ?_⟩
    · unfold checkpoint checkpointWith
      rw [prepareCheckpoint_of_check hagain]
    · intro result stored' hstored
      rw [checkpoint_replacement hstored]
      exact ⟨again, hagain⟩

/-- A question, a Tool call, its result and the answer. -/
def askedHistory : List DurableTranscriptMessage :=
  [ .user (.text "Which field is dry?" 0),
    .assistant ⟨[.thinking "look", .toolCall ⟨"c", "survey", [], none⟩], "api", "p", "m", none,
      .toolUse, 1⟩,
    .toolResult ⟨"c", "survey", [.text "North"], none, false, 2⟩,
    .assistant ⟨[.text "The north field."], "api", "p", "m", none, .stop, 3⟩ ]

/-- A host whose messages weigh ten tokens each, and that keeps the last answer. -/
def tenTokens : CompactionHost Nat where
  countContext _ messages := .ok (some (10 * messages.length))
  summarize _ := .ok ⟨⟨[.text "The north field is dry." none], some 5, .stop, 4⟩, some 3⟩
  materializeSummary summary := summary.content.length

theorem history_balanced_asked :
    ∃ replacement, prepare ⟨10, 10, 10⟩ tenTokens (some 40) askedHistory [0, 1, 2, 3] =
        .ok (some replacement) ∧
      ∀ stored source, checkpoint ⟨1000, 1000, 10000, 20⟩ ⟨"s", "a"⟩
          (⟨fun _ => "r", fun _ => 0, fun _ _ => none, fun _ _ => .ok ()⟩ : TranscriptHost Unit)
          stored source replacement =
        checkpointWith ⟨1000, 1000, 10000, 20⟩ ⟨"s", "a"⟩
          ⟨fun _ => "r", fun _ => 0, fun _ _ => none, fun _ _ => .ok ()⟩ (fun _ => .ok [])
          stored source replacement := by
  refine ⟨_, rfl, fun stored source => ?_⟩
  exact ((history_balanced ⟨1000, 1000, 10000, 20⟩ ⟨"s", "a"⟩ _ ⟨10, 10, 10⟩
    tenTokens).2.2 (some 40) askedHistory [0, 1, 2, 3] _ rfl stored source).1

end OpenGameAgent
