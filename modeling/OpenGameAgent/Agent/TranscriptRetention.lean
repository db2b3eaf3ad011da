import OpenGameAgent.Agent.TranscriptExtension

/-!
# Checkpoint retention

`InMemoryTranscriptStore.purgeBeforeCheckpoint` of
`packages/agent/src/durable-transcript.ts` and what a scan still knows after it.

A purge drops everything before the `turn.closed` record a checkpoint names.  What
is left begins at that record, and a scan of it starts with empty maps: it has
forgotten which operation each run opened last.  `survives_iff_keepsRuns` says exactly
when that loss shows.

* `Forgets` — the relation between the scan of the whole log and the scan of what
  the purge left: every map of the second is part of the same map of the first.
* `Forgets.step` — a step of the first is a step of the second, unless it closes a
  run whose operation was forgotten.
-/

namespace OpenGameAgent

/-! ## Purging -/

/-- `TranscriptCheckpointPurgeRequest`, for the stream at hand. -/
structure TranscriptCheckpointPurgeRequest where
  checkpointRevision : Nat
  limit : Nat
  retainRevisions : List TranscriptRevision
  retainMaxCount : Nat
  retainMaxBytes : Nat

structure TranscriptCheckpointPurgeResult where
  purgedRecordCount : Nat
  earliestAvailableRevision : Option Nat
  latestRevision : TranscriptRevision
  deriving DecidableEq, Repr

def TranscriptRevision.text : TranscriptRevision → String
  | .empty => "empty"
  | .at sequence => toString sequence

/-- `captureRetainedIdentifiers`: the list fits its budget and holds no value twice. -/
def captureRetainedIdentifiers (values : List String) (maxCount maxBytes : Nat) :
    Except TranscriptError Unit :=
  if values.length > maxCount then
    .error (.range "retainRevisions exceeds retainBudget.maxCount.")
  else if (values.map fun value => utf8Length (utf16 value)).sum > maxBytes then
    .error (.range "retainRevisions exceeds retainBudget.maxBytes.")
  else if ¬ values.Nodup then .error (.type "retainRevisions must be unique.")
  else .ok ()

/-- `captureCheckpointPurgeRequest`. -/
def captureCheckpointPurgeRequest (request : TranscriptCheckpointPurgeRequest) :
    Except TranscriptError Unit :=
  if request.checkpointRevision < 1 then
    .error (.type "checkpointRevision must be a positive canonical decimal.")
  else if ¬ (0 < request.limit ∧ request.limit ≤ maxSafeInteger) then
    .error (.type "limit must be a positive safe integer.")
  else captureRetainedIdentifiers (request.retainRevisions.map TranscriptRevision.text)
    request.retainMaxCount request.retainMaxBytes

/-- Does a retained revision forbid to purge what lies before this source? -/
def TranscriptRevision.protects (sourceSequence : Nat) : TranscriptRevision → Bool
  | .empty => true
  | .at sequence => sequence ≤ sourceSequence

/-- The purge leaves the log alone: the prefix is longer than the batch, or a revision
in it must remain addressable. -/
def TranscriptCheckpointPurgeRequest.isBlocked (request : TranscriptCheckpointPurgeRequest)
    (purgeCount sourceSequence : Nat) : Bool :=
  purgeCount > request.limit ||
    request.retainRevisions.any (TranscriptRevision.protects sourceSequence)

/-- `transcriptPurgeResult`. -/
def transcriptPurgeResult (records : List DurableTranscriptRecord) (purgedRecordCount : Nat) :
    TranscriptCheckpointPurgeResult where
  purgedRecordCount := purgedRecordCount
  earliestAvailableRevision := records.head?.map RecordOf.sequence
  latestRevision := headRevision records

/-- `InMemoryTranscriptStore.purgeBeforeCheckpoint`, with the records it leaves. -/
def purgeBeforeCheckpoint (records : List DurableTranscriptRecord)
    (request : TranscriptCheckpointPurgeRequest) :
    Except TranscriptError (List DurableTranscriptRecord × TranscriptCheckpointPurgeResult) := do
  captureCheckpointPurgeRequest request
  match records.findIdx? (fun record => record.sequence = request.checkpointRevision) with
  | none => .error (.type "The requested transcript checkpoint is unavailable.")
  | some 0 => .error (.type "The requested transcript checkpoint is unavailable.")
  | some (sourceIndex + 1) =>
    match records[sourceIndex + 1]?, records[sourceIndex]? with
    | some checkpoint, some source =>
      match checkpoint.data with
      | .contextCheckpoint data => do
        assertExactTranscriptCheckpointBoundary checkpoint data source
        if request.isBlocked sourceIndex source.sequence then
          return (records, transcriptPurgeResult records 0)
        else
          return (records.drop sourceIndex,
            transcriptPurgeResult (records.drop sourceIndex) sourceIndex)
      | _ => .error (.type "The requested revision is not a checkpoint.")
    | _, _ => .error (.type "The transcript checkpoint source boundary is invalid.")

/-- The checkpoint a purge request names, in its log. -/
structure CheckpointAt (records : List DurableTranscriptRecord)
    (request : TranscriptCheckpointPurgeRequest) (before : List DurableTranscriptRecord)
    (source checkpoint : DurableTranscriptRecord) (data : ContextCheckpoint)
    (rest : List DurableTranscriptRecord) : Prop where
  records_eq : records = before ++ source :: checkpoint :: rest
  found : records.findIdx? (fun record => record.sequence = request.checkpointRevision) =
    some (before.length + 1)
  data_eq : checkpoint.data = .contextCheckpoint data
  boundary : assertExactTranscriptCheckpointBoundary checkpoint data source = .ok ()

theorem append_cons_cons_of_getElem? {β : Type} {l : List β} {i : Nat} {a b : β}
    (ha : l[i]? = some a) (hb : l[i + 1]? = some b) :
    l = l.take i ++ a :: b :: l.drop (i + 2) := by
  obtain ⟨hi, rfl⟩ := List.getElem?_eq_some_iff.1 ha
  obtain ⟨hi', rfl⟩ := List.getElem?_eq_some_iff.1 hb
  rw [← List.drop_eq_getElem_cons hi', ← List.drop_eq_getElem_cons hi, List.take_append_drop]

/-- A purge finds its checkpoint, and then drops what lies before the source or nothing. -/
theorem purgeBeforeCheckpoint_eq_ok {records purged : List DurableTranscriptRecord}
    {request : TranscriptCheckpointPurgeRequest} {result : TranscriptCheckpointPurgeResult}
    (h : purgeBeforeCheckpoint records request = .ok (purged, result)) :
    ∃ before source checkpoint data rest,
      CheckpointAt records request before source checkpoint data rest ∧
      purged = (if request.isBlocked before.length source.sequence then records
        else source :: checkpoint :: rest) := by
  unfold purgeBeforeCheckpoint at h
  obtain ⟨_, -, h⟩ := bind_eq_ok.1 h
  split at h
  · cases h
  · cases h
  · rename_i sourceIndex hfound
    split at h
    · rename_i checkpoint source hcheckpoint hsource
      split at h
      · rename_i data hdata
        obtain ⟨_, hboundary, h⟩ := bind_eq_ok.1 h
        have hrecords := append_cons_cons_of_getElem? hsource hcheckpoint
        have hlength : (records.take sourceIndex).length = sourceIndex := by
          obtain ⟨hi, -⟩ := List.getElem?_eq_some_iff.1 hsource
          rw [List.length_take]
          omega
        have hdrop : records.drop sourceIndex =
            source :: checkpoint :: records.drop (sourceIndex + 2) := by
          obtain ⟨hi, rfl⟩ := List.getElem?_eq_some_iff.1 hsource
          obtain ⟨hi', rfl⟩ := List.getElem?_eq_some_iff.1 hcheckpoint
          rw [← List.drop_eq_getElem_cons hi', ← List.drop_eq_getElem_cons hi]
        refine ⟨records.take sourceIndex, source, checkpoint, data, records.drop (sourceIndex + 2),
          ⟨hrecords, by rw [hlength]; exact hfound, hdata, hboundary⟩, ?_⟩
        rw [hlength]
        split at h
        · rename_i hblocked
          cases h
          rw [if_pos hblocked]
        · rename_i hblocked
          cases h
          rw [if_neg hblocked, hdrop]
      · cases h
    · cases h

/-! ## What a scan of the purged log has forgotten -/

/-- `t` scans what a purge left of the log that `s` scans.  A run whose operation only
`s` remembers is closed already, or one of those that will open another operation. -/
structure Forgets (reopens : String → Prop) (s t : ScanState) : Prop where
  bytes : t.bytes ≤ s.bytes
  expected : t.expected = s.expected
  openTurn : t.openTurn = s.openTurn
  checkpointRevision : t.checkpointRevision = s.checkpointRevision
  previousRecord : t.previousRecord = s.previousRecord
  durableMessages : t.durableMessages = s.durableMessages
  actualRevision : t.actualRevision = s.actualRevision
  recordIds : ∀ id ∈ t.recordIds, id ∈ s.recordIds
  closed : ∀ runId ∈ t.closedDeferredRuns, runId ∈ s.closedDeferredRuns
  origins : t.deferredOrigins.Sub s.deferredOrigins
  latest : t.latestDeferredOrigins.Sub s.latestDeferredOrigins
  settlements : t.deferredSettlements.Sub s.deferredSettlements
  closures : t.lastClosedTurns.Sub s.lastClosedTurns
  remembered : ∀ runId, s.latestDeferredOrigins.has runId = true →
    runId ∈ s.closedDeferredRuns ∨ t.latestDeferredOrigins.has runId = true ∨ reopens runId
  coherent : t.Coherent

section Forgets

variable {limits : TranscriptLimits} {stream : StreamKey} {reopens : String → Prop}
  {s t : ScanState} {record : DurableTranscriptRecord}

theorem Forgets.admits (h : Forgets reopens s t) (hadmits : Admits limits stream s record) :
    Admits limits stream t record := by
  have hbytes := h.bytes
  have hbudget := hadmits.bytes
  exact ⟨hadmits.snapshot, fun hc => hadmits.fresh (h.recordIds _ hc), hadmits.coordinate,
    by rw [h.expected]; exact hadmits.sequence, by omega⟩

/-- A terminal that the whole log accepts is accepted, unless its operation is forgotten. -/
theorem Forgets.runClosable (h : Forgets reopens s t) (hopen : s.openTurn = none)
    {coordinate : RunCoordinate} {data : DeferredRunClosed}
    (hrun : coordinate.runId ∉ s.closedDeferredRuns) (hnot : ¬ reopens coordinate.runId)
    (hclosable : RunClosable s coordinate data) : RunClosable t coordinate data := by
  obtain ⟨origin, settlement, closure, h1, h2, h3, h4, h5, h6, h7⟩ := hclosable
  have hhas : s.latestDeferredOrigins.has coordinate.runId = true :=
    OrderedMap.has_iff.2 ⟨origin, h1⟩
  rcases h.remembered _ hhas with hc | ht | hr
  · exact absurd hc hrun
  · obtain ⟨origin', horigin'⟩ := OrderedMap.has_iff.1 ht
    have hsame := h.latest _ _ horigin'
    rw [h1, Option.some.injEq] at hsame
    subst hsame
    have hclosed : t.openTurn = none := by rw [h.openTurn, hopen]
    rcases h.coherent.origin_settled _ _ horigin' with ⟨x, hx⟩ | ⟨turn, hturn, -⟩
    · rcases h.coherent.origin_closure _ _ horigin' with ⟨c, hc⟩ | ⟨turn, hturn, -⟩
      · have hx' := h.settlements _ _ hx
        rw [h2, Option.some.injEq] at hx'
        have hc' := h.closures _ _ hc
        rw [h6, Option.some.injEq] at hc'
        subst hx' hc'
        exact ⟨origin, settlement, closure, horigin', hx, h3, h4, h5, hc, h7⟩
      · rw [hclosed] at hturn
        cases hturn
    · rw [hclosed] at hturn
      cases hturn
  · exact absurd hr hnot

theorem Forgets.tracks (h : Forgets reopens s t) (htracks : Tracks s record)
    (hopen : (∃ data, record.data = .deferredRunClosed data) → s.openTurn = none)
    (hnot : (∃ data, record.data = .deferredRunClosed data) → ¬ reopens record.coordinate.runId) :
    Tracks t record := by
  obtain ⟨hrun, hdeferred⟩ := htracks
  refine ⟨fun hc => hrun (h.closed _ hc), ?_⟩
  unfold DeferredInOrder at hdeferred ⊢
  cases hdata : record.data with
  | deferredOpened data =>
    rw [hdata] at hdeferred
    exact h.origins.has hdeferred
  | deferredRunClosed data =>
    rw [hdata] at hdeferred
    exact h.runClosable (hopen ⟨data, hdata⟩) hrun (hnot ⟨data, hdata⟩) hdeferred
  | _ => trivial

/-- The fields of both states after one and the same record. -/
theorem Forgets.next (h : Forgets reopens s t) {reopens' : String → Prop}
    {openTurn : Option OpenTurn} {messages : List DurableTranscriptMessage}
    (hreopens : ∀ runId, reopens runId → record.OpensFor runId ∨ reopens' runId)
    (hcoherent : ((t.admitted record).advance none record openTurn messages).Coherent) :
    Forgets reopens' ((s.admitted record).advance none record openTurn messages)
      ((t.admitted record).advance none record openTurn messages) := by
  have hbytes := h.bytes
  have hlatest : ∀ runId, (∃ opened, record.openedOperation = some opened) →
      record.coordinate.runId = runId →
      ((t.admitted record).advance none record openTurn messages).latestDeferredOrigins.has runId =
        true := by
    rintro runId ⟨opened, hopened⟩ rfl
    rw [advance_latestDeferredOrigins, hopened]
    exact OrderedMap.has_iff.2 ⟨opened, OrderedMap.get?_set_self _ _ _⟩
  constructor
  case bytes =>
    rw [advance_bytes, advance_bytes]
    simp only [ScanState.admitted]
    omega
  case expected => rw [advance_expected, advance_expected]; simp only [ScanState.admitted, h.expected]
  case openTurn => rfl
  case checkpointRevision =>
    rw [advance_checkpointRevision, advance_checkpointRevision]
    simp only [ScanState.admitted, h.checkpointRevision]
  case previousRecord => rfl
  case durableMessages => rfl
  case actualRevision => rfl
  case recordIds =>
    intro id hid
    rcases List.mem_append.1 hid with hid | hid
    · exact List.mem_append.2 (Or.inl (h.recordIds id hid))
    · exact List.mem_append.2 (Or.inr hid)
  case closed =>
    intro runId hmem
    rw [advance_closedDeferredRuns] at hmem ⊢
    split
    · rename_i data hdata
      rw [hdata] at hmem
      rcases List.mem_append.1 hmem with hmem | hmem
      · exact List.mem_append.2 (Or.inl (h.closed runId hmem))
      · exact List.mem_append.2 (Or.inr hmem)
    · rename_i hdata
      split at hmem
      · rename_i data heq
        exact absurd heq (hdata data)
      · exact h.closed runId hmem
  case origins =>
    rw [advance_deferredOrigins, advance_deferredOrigins]
    split
    · exact h.origins.set _ _
    · exact h.origins
  case latest =>
    rw [advance_latestDeferredOrigins, advance_latestDeferredOrigins]
    split
    · exact h.latest.set _ _
    · exact h.latest
  case settlements =>
    rw [advance_deferredSettlements, advance_deferredSettlements]
    split
    · exact h.settlements.set _ _
    · exact h.settlements
  case closures =>
    rw [advance_lastClosedTurns, advance_lastClosedTurns, admit_openTurn, admit_openTurn,
      h.openTurn]
    split
    · exact h.closures.set _ _
    · exact h.closures
  case remembered =>
    intro runId hhas
    have hkeep : runId ∈ s.closedDeferredRuns → runId ∈
        ((s.admitted record).advance none record openTurn messages).closedDeferredRuns := by
      intro hmem
      rw [advance_closedDeferredRuns]
      split
      · exact List.mem_append.2 (Or.inl hmem)
      · exact hmem
    have hold : s.latestDeferredOrigins.has runId = true →
        runId ∈ ((s.admitted record).advance none record openTurn messages).closedDeferredRuns ∨
        ((t.admitted record).advance none record openTurn
          messages).latestDeferredOrigins.has runId = true ∨ reopens' runId := by
      intro hs
      rcases h.remembered runId hs with hc | ht | hr
      · exact Or.inl (hkeep hc)
      · right; left
        rw [advance_latestDeferredOrigins]
        split
        · obtain ⟨origin, horigin⟩ := OrderedMap.has_iff.1 ht
          rw [OrderedMap.has_iff]
          simp only [OrderedMap.get?_set]
          split
          · exact ⟨_, rfl⟩
          · exact ⟨origin, horigin⟩
        · exact ht
      · rcases hreopens runId hr with ⟨hrun, data, hdata⟩ | hr'
        · exact Or.inr (Or.inl (hlatest runId
            ⟨_, openedOperation_eq_some.2 ⟨data, hdata, rfl⟩⟩ hrun))
        · exact Or.inr (Or.inr hr')
    rw [advance_latestDeferredOrigins] at hhas
    split at hhas
    · rename_i opened hopened
      by_cases hrun : record.coordinate.runId = runId
      · exact Or.inr (Or.inl (hlatest runId ⟨opened, hopened⟩ hrun))
      · refine hold ?_
        obtain ⟨origin, horigin⟩ := OrderedMap.has_iff.1 hhas
        rw [OrderedMap.get?_set_of_ne _ hrun] at horigin
        exact OrderedMap.has_iff.2 ⟨origin, horigin⟩
    · exact hold hhas
  case coherent => exact hcoherent

/-- A step of the scan of the whole log is a step of the scan of what is left. -/
theorem Forgets.step (h : Forgets reopens s t) {s' : ScanState} {reopens' : String → Prop}
    (hreopens : ∀ runId, reopens runId → record.OpensFor runId ∨ reopens' runId)
    (hnot : ∀ runId, record.ClosesRun runId → ¬ reopens runId)
    (hstep : stepRecord limits stream none s record = .ok s') :
    ∃ t', stepRecord limits stream none t record = .ok t' ∧ Forgets reopens' s' t' := by
  obtain ⟨hadmits, htracks, openTurn, messages, hfold, rfl⟩ := stepRecord_eq_ok_iff.1 hstep
  have hopen : (∃ data, record.data = .deferredRunClosed data) → s.openTurn = none := by
    rintro ⟨data, hdata⟩
    exact ((foldRecord_deferredRunClosed hdata).1 hfold).1
  have htracks' : Tracks t record :=
    h.tracks htracks hopen fun hdata => hnot _ ⟨rfl, hdata⟩
  have hfold' : foldRecord record t.openTurn t.durableMessages t.previousRecord =
      .ok (openTurn, messages) := by
    rw [h.openTurn, h.durableMessages, h.previousRecord]
    exact hfold
  have hstep' : stepRecord limits stream none t record = .ok _ :=
    stepRecord_of (h.admits hadmits) htracks' hfold'
  exact ⟨_, hstep', h.next hreopens (h.coherent.step hstep')⟩

/-- A record after its run's terminal is refused, so no run is reopened behind one. -/
theorem run_stays_closed {s s' : ScanState} {records : List DurableTranscriptRecord}
    {runId : String} (hrun : runM (stepRecord limits stream none) s records = .ok s')
    (hclosed : runId ∈ s.closedDeferredRuns) : ∀ record ∈ records, record.coordinate.runId ≠ runId := by
  induction records generalizing s with
  | nil => simp
  | cons record rest ih =>
    obtain ⟨mid, hmid, hrest⟩ := runM_cons_eq_ok.1 hrun
    obtain ⟨-, htracks, openTurn, messages, -, rfl⟩ := stepRecord_eq_ok_iff.1 hmid
    have hkeep : runId ∈
        ((s.admitted record).advance none record openTurn messages).closedDeferredRuns := by
      rw [advance_closedDeferredRuns]
      split
      · exact List.mem_append.2 (Or.inl hclosed)
      · exact hclosed
    intro r hr
    rcases List.mem_cons.1 hr with rfl | hr
    · intro hc
      exact htracks.run_open (hc ▸ hclosed)
    · exact ih hrest hkeep r hr

/-- The records of a log whose runs are still to be reopened, one after the other. -/
def Reopens (records : List DurableTranscriptRecord) (runId : String) : Prop :=
  ∃ record ∈ records, record.OpensFor runId

/-- A run of the scan of the whole log is a run of the scan of what is left. -/
theorem Forgets.run {s s' t : ScanState} {records : List DurableTranscriptRecord}
    (h : Forgets (Reopens records) s t)
    (hrun : runM (stepRecord limits stream none) s records = .ok s') :
    ∃ t', runM (stepRecord limits stream none) t records = .ok t' ∧
      Forgets (Reopens []) s' t' := by
  induction records generalizing s t with
  | nil =>
    cases hrun
    exact ⟨t, rfl, h⟩
  | cons record rest ih =>
    obtain ⟨mid, hmid, hrest⟩ := runM_cons_eq_ok.1 hrun
    have hreopens : ∀ runId, Reopens (record :: rest) runId →
        record.OpensFor runId ∨ Reopens rest runId := by
      rintro runId ⟨r, hr, hopens⟩
      rcases List.mem_cons.1 hr with rfl | hr
      · exact Or.inl hopens
      · exact Or.inr ⟨r, hr, hopens⟩
    have hnot : ∀ runId, record.ClosesRun runId → ¬ Reopens (record :: rest) runId := by
      rintro runId ⟨hrunId, data, hdata⟩ hopens
      have hclosed : runId ∈ mid.closedDeferredRuns := by
        obtain ⟨-, -, openTurn, messages, -, rfl⟩ := stepRecord_eq_ok_iff.1 hmid
        rw [advance_closedDeferredRuns, hdata]
        exact List.mem_append.2 (Or.inr (by simp [hrunId]))
      rcases hreopens runId hopens with ⟨-, data', hdata'⟩ | ⟨r, hr, hopens⟩
      · rw [hdata] at hdata'
        cases hdata'
      · exact run_stays_closed hrest hclosed r hr hopens.1
    obtain ⟨mid', hmid', hnext⟩ := h.step hreopens hnot hmid
    obtain ⟨t', ht', hend⟩ := ih hnext hrest
    exact ⟨t', runM_cons_eq_ok.2 ⟨mid', hmid', ht'⟩, hend⟩

end Forgets

/-! ## Where the whole log stands at the checkpoint -/

section Purge

variable {limits : TranscriptLimits} {stream : StreamKey}
  {before rest : List DurableTranscriptRecord} {source checkpoint : DurableTranscriptRecord}
  {data : ContextCheckpoint}

theorem boundary_source (h : assertExactTranscriptCheckpointBoundary checkpoint data source =
    .ok ()) : source.data = .turnClosed .completed := by
  unfold assertExactTranscriptCheckpointBoundary at h
  split at h
  · assumption
  · cases h

/-- Behind a nonempty prefix the scan of the whole log stands at the source. -/
theorem scanLog_at_source {st : ScanState} (hne : before ≠ [])
    (hsource : source.data = .turnClosed .completed)
    (h : scanLog limits stream none (before ++ source :: rest) = .ok st) :
    ∃ s, runM (stepRecord limits stream none) s (source :: rest) = .ok st ∧
      (∀ runId, s.latestDeferredOrigins.has runId = true ↔
        ∃ record ∈ before, record.OpensFor runId) ∧
      ∀ runId, runId ∈ s.closedDeferredRuns ↔ ∃ record ∈ before, record.ClosesRun runId := by
  cases before with
  | nil => exact absurd rfl hne
  | cons first before =>
    rw [List.cons_append, scanLog_cons] at h
    rcases h with ⟨-, hrun⟩ | ⟨hretained, hrun⟩
    · rw [← List.cons_append] at hrun
      obtain ⟨s, hs, hrest⟩ := runM_append_eq_ok.1 hrun
      refine ⟨s, hrest, ?_, ?_⟩
      · intro runId
        rw [has_latestDeferredOrigins_runM hs]
        exact or_iff_right (by rw [Bool.not_eq_true]; rfl)
      · intro runId
        rw [mem_closedDeferredRuns_runM hs]
        exact or_iff_right List.not_mem_nil
    · cases before with
      | nil =>
        obtain ⟨c, tail, heq, hcheckpoint⟩ := hretained.checkpoint
        rw [List.nil_append, List.cons.injEq] at heq
        rw [← heq.1, hsource] at hcheckpoint
        cases hcheckpoint
      | cons second before =>
        obtain ⟨s, hs, hrest⟩ := runM_append_eq_ok.1 hrun
        refine ⟨s, hrest, ?_, ?_⟩
        · intro runId
          rw [has_latestDeferredOrigins_runM hs, List.exists_mem_cons_iff (a := first),
            DurableTranscriptRecord.OpensFor, hretained.closed]
          simp only [reduceCtorEq, exists_false, and_false, false_or]
          exact or_iff_right (by rw [Bool.not_eq_true]; rfl)
        · intro runId
          rw [mem_closedDeferredRuns_runM hs, List.exists_mem_cons_iff (a := first),
            DurableTranscriptRecord.ClosesRun, hretained.closed]
          simp only [reduceCtorEq, exists_false, and_false, false_or]
          exact or_iff_right List.not_mem_nil

/-- What is left of a log after its prefix is dropped begins at a retained source. -/
theorem retainedSource_of_step {s s' : ScanState} (hpurged : 1 < source.sequence)
    (hsource : source.data = .turnClosed .completed) (hcheckpoint : checkpoint.data.isCheckpoint = true)
    (hstep : stepRecord limits stream none s source = .ok s') :
    RetainedSource limits stream none source (checkpoint :: rest) := by
  obtain ⟨hadmits, -⟩ := stepRecord_eq_ok_iff.1 hstep
  have hbudget := hadmits.bytes
  refine ⟨hpurged, hsource, ⟨hadmits.snapshot, List.not_mem_nil, hadmits.coordinate, rfl, ?_⟩,
    checkpoint, rest, rfl, hcheckpoint⟩
  have hzero : (ScanState.start none source.sequence).bytes = 0 := rfl
  rw [hzero]
  omega

/-- At the checkpoint both scans stand alike, but for what the second has forgotten. -/
theorem forgets_at_checkpoint {s s₁ s₂ : ScanState}
    (hsource : source.data = .turnClosed .completed) (hdata : checkpoint.data = .contextCheckpoint data)
    (hstep : stepRecord limits stream none s source = .ok s₁)
    (hstep' : stepRecord limits stream none s₁ checkpoint = .ok s₂)
    {reopens : String → Prop}
    (hruns : ∀ runId, s.latestDeferredOrigins.has runId = true →
      runId ∈ s.closedDeferredRuns ∨ reopens runId) :
    ∃ t, stepRecord limits stream none (ScanState.retained none source) checkpoint = .ok t ∧
      Forgets reopens s₂ t := by
  obtain ⟨hadmits, -, openTurn, messages, hfold, rfl⟩ := stepRecord_eq_ok_iff.1 hstep
  obtain ⟨-, rfl, -⟩ := (foldRecord_turnClosed hsource).1 hfold
  obtain ⟨hadmits', -, openTurn', messages', hfold', rfl⟩ := stepRecord_eq_ok_iff.1 hstep'
  obtain ⟨-, hprevious, rfl, rfl⟩ := (foldRecord_checkpoint hdata).1 hfold'
  have hbytes : (ScanState.retained none source).bytes = DurableTranscriptRecord.bytes source :=
    Nat.zero_add _
  have hadmitsRetained : Admits limits stream (ScanState.retained none source) checkpoint := by
    have hbudget := hadmits'.bytes
    rw [advance_bytes] at hbudget
    simp only [ScanState.admitted] at hbudget
    refine ⟨hadmits'.snapshot, ?_, hadmits'.coordinate, ?_, by rw [hbytes]; omega⟩
    · intro hmem
      apply hadmits'.fresh
      rw [advance_recordIds]
      exact List.mem_append.2 (Or.inr hmem)
    · rw [hadmits'.sequence, advance_expected]
      simp only [ScanState.admitted, ← hadmits.sequence]
      rfl
  have htracks : Tracks (ScanState.retained none source) checkpoint := by
    refine ⟨List.not_mem_nil, ?_⟩
    rw [DeferredInOrder, hdata]
    trivial
  have hretained : stepRecord limits stream none (ScanState.retained none source) checkpoint =
      .ok _ :=
    stepRecord_of hadmitsRetained htracks ((foldRecord_checkpoint hdata).2 ⟨rfl, hprevious, rfl, rfl⟩)
  have hcoherent : (ScanState.retained none source).Coherent := by
    refine coherent_of_empty rfl rfl rfl ?_
    rintro sequence ⟨⟩
    rfl
  have hnone : checkpoint.openedOperation = none := by
    rw [DurableTranscriptRecord.openedOperation, hdata]
  have hnoneSource : source.openedOperation = none := by
    rw [DurableTranscriptRecord.openedOperation, hsource]
  refine ⟨_, hretained, ?_⟩
  constructor
  case bytes =>
    rw [advance_bytes, advance_bytes]
    simp only [ScanState.admitted, hbytes, advance_bytes]
    omega
  case expected =>
    rw [advance_expected, advance_expected]
    simp only [ScanState.admitted, advance_expected, ← hadmits.sequence]
    rfl
  case openTurn => rfl
  case checkpointRevision =>
    rw [advance_checkpointRevision, advance_checkpointRevision, hdata]
    rfl
  case previousRecord => rfl
  case durableMessages => rfl
  case actualRevision => rfl
  case recordIds =>
    intro id hid
    rw [advance_recordIds] at hid ⊢
    rcases List.mem_append.1 hid with hid | hid
    · exact List.mem_append.2 (Or.inl (List.mem_append.2 (Or.inr hid)))
    · exact List.mem_append.2 (Or.inr hid)
  case closed =>
    intro runId hmem
    rw [advance_closedDeferredRuns, hdata] at hmem
    cases hmem
  case origins =>
    rw [advance_deferredOrigins, hnone]
    exact OrderedMap.sub_empty _
  case latest =>
    rw [advance_latestDeferredOrigins, hnone]
    exact OrderedMap.sub_empty _
  case settlements =>
    rw [advance_deferredSettlements, hdata]
    exact OrderedMap.sub_empty _
  case closures =>
    rw [advance_lastClosedTurns, hdata]
    exact OrderedMap.sub_empty _
  case remembered =>
    intro runId hhas
    rw [advance_latestDeferredOrigins, hnone, admit_latestDeferredOrigins,
      advance_latestDeferredOrigins, hnoneSource] at hhas
    rw [advance_closedDeferredRuns, hdata, admit_closedDeferredRuns, advance_closedDeferredRuns,
      hsource]
    rcases hruns runId hhas with hc | hr
    · exact Or.inl hc
    · exact Or.inr (Or.inr hr)
  case coherent => exact hcoherent.step hretained

/-! ## When a purge keeps the log acceptable -/

/-- Whatever follows, a scan that accepts the log accepts what is left of it, with the
same head, the same checkpoint and the same messages. -/
def SurvivesPurge (stream : StreamKey) (records purged : List DurableTranscriptRecord) : Prop :=
  ∀ limits more st,
    scanCommittedTranscript limits stream ⟨headRevision (records ++ more), records ++ more⟩ none =
      .ok st →
    ∃ st', scanCommittedTranscript limits stream
        ⟨headRevision (records ++ more), purged ++ more⟩ none = .ok st' ∧
      st'.checkpointRevision = st.checkpointRevision ∧ st'.durableMessages = st.durableMessages

/-- Every run with an operation before the source is closed there, or opens another
operation in what is kept. -/
def RunsOutlivePurge (before kept : List DurableTranscriptRecord) : Prop :=
  ∀ runId, (∃ record ∈ before, record.OpensFor runId) →
    (∃ record ∈ before, record.ClosesRun runId) ∨ ∃ record ∈ kept, record.OpensFor runId

/-- The request purges nothing, or no run still needs what it purges. -/
def PurgeKeepsRuns (records : List DurableTranscriptRecord)
    (request : TranscriptCheckpointPurgeRequest) : Prop :=
  ∀ before source checkpoint data rest,
    CheckpointAt records request before source checkpoint data rest →
    request.isBlocked before.length source.sequence = true ∨
      (1 < source.sequence ∧ RunsOutlivePurge before (source :: checkpoint :: rest))

theorem CheckpointAt.unique {records : List DurableTranscriptRecord}
    {request : TranscriptCheckpointPurgeRequest}
    {before' rest' : List DurableTranscriptRecord} {source' checkpoint' : DurableTranscriptRecord}
    {data' : ContextCheckpoint} (h : CheckpointAt records request before source checkpoint data rest)
    (h' : CheckpointAt records request before' source' checkpoint' data' rest') :
    before' = before ∧ source' = source ∧ checkpoint' = checkpoint ∧ rest' = rest := by
  have hlength : before'.length = before.length := by
    have hfound := h.found
    rw [h'.found, Option.some.injEq] at hfound
    omega
  have heq := h'.records_eq.symm.trans h.records_eq
  obtain ⟨h1, h2⟩ := List.append_inj heq hlength
  rw [List.cons.injEq, List.cons.injEq] at h2
  exact ⟨h1, h2.1, h2.2.1, h2.2.2⟩

/-- A log that keeps its operations survives the purge. -/
theorem survives_of_runsOutlive (hne : before ≠ []) (hpurged : 1 < source.sequence)
    (hdata : checkpoint.data = .contextCheckpoint data)
    (hboundary : assertExactTranscriptCheckpointBoundary checkpoint data source = .ok ())
    (hruns : RunsOutlivePurge before (source :: checkpoint :: rest)) :
    SurvivesPurge stream (before ++ source :: checkpoint :: rest) (source :: checkpoint :: rest) := by
  intro limits more st hscan
  obtain ⟨hsnap, hlog, hhead, -⟩ := scanCommittedTranscript_eq_ok_iff.1 hscan
  have hsource := boundary_source hboundary
  dsimp only at hlog
  rw [List.append_assoc, List.cons_append, List.cons_append] at hlog
  obtain ⟨s, hrun, hlatest, hclosed⟩ := scanLog_at_source hne hsource hlog
  obtain ⟨s₁, hstep, hrun⟩ := runM_cons_eq_ok.1 hrun
  obtain ⟨s₂, hstep', hrun⟩ := runM_cons_eq_ok.1 hrun
  have hforgotten : ∀ runId, s.latestDeferredOrigins.has runId = true →
      runId ∈ s.closedDeferredRuns ∨ Reopens (rest ++ more) runId := by
    intro runId hhas
    rcases hruns runId ((hlatest runId).1 hhas) with hc | ⟨record, hmem, hopens⟩
    · exact Or.inl ((hclosed runId).2 hc)
    · right
      obtain ⟨-, d, hd⟩ := id hopens
      rcases List.mem_cons.1 hmem with rfl | hmem
      · rw [hsource] at hd
        cases hd
      · rcases List.mem_cons.1 hmem with rfl | hmem
        · rw [hdata] at hd
          cases hd
        · exact ⟨record, List.mem_append.2 (Or.inl hmem), hopens⟩
  obtain ⟨t, ht, hforgets⟩ := forgets_at_checkpoint hsource hdata hstep hstep' hforgotten
  obtain ⟨t', ht', hend⟩ := hforgets.run hrun
  have hsourced : RetainedSource limits stream none source (checkpoint :: (rest ++ more)) :=
    retainedSource_of_step hpurged hsource (isCheckpoint_iff.2 ⟨data, hdata⟩) hstep
  refine ⟨t', ?_, hend.checkpointRevision, hend.durableMessages⟩
  refine scanCommittedTranscript_eq_ok_iff.2 ⟨hsnap, ?_, ?_, by simp⟩
  · exact scanLog_cons.2 (Or.inr ⟨hsourced, runM_cons_eq_ok.2 ⟨t, ht, ht'⟩⟩)
  · rw [hend.actualRevision]
    exact hhead

/-- A scan that begins without operations accepts a terminal only behind an opening. -/
theorem opens_before_closes {s s' : ScanState} {records : List DurableTranscriptRecord}
    {runId : String} (hrun : runM (stepRecord limits stream none) s records = .ok s')
    (hempty : s.latestDeferredOrigins.has runId = false)
    (hcloses : ∃ record ∈ records, record.ClosesRun runId) :
    ∃ record ∈ records, record.OpensFor runId := by
  obtain ⟨record, hmem, hrunId, data, hdata⟩ := hcloses
  obtain ⟨front, back, rfl⟩ := List.append_of_mem hmem
  obtain ⟨mid, hmid, hrest⟩ := runM_append_eq_ok.1 hrun
  obtain ⟨next, hnext, -⟩ := runM_cons_eq_ok.1 hrest
  obtain ⟨-, htracks, -⟩ := stepRecord_eq_ok_iff.1 hnext
  have hclosable := htracks.deferred
  rw [DeferredInOrder, hdata] at hclosable
  obtain ⟨origin, -, -, horigin, -⟩ := hclosable
  rw [hrunId] at horigin
  rcases (has_latestDeferredOrigins_runM hmid).1 (OrderedMap.has_iff.2 ⟨origin, horigin⟩)
    with hc | ⟨opener, hopener, hopens⟩
  · rw [hempty] at hc
    cases hc
  · exact ⟨opener, List.mem_append.2 (Or.inl hopener), hopens⟩

/-- An accepted purged log begins at a retained source. -/
theorem retained_of_purged {purged : List DurableTranscriptRecord} {st : ScanState}
    (hsource : source.data = .turnClosed .completed)
    (hscan : scanLog limits stream none (source :: purged) = .ok st) :
    1 < source.sequence ∧ runM (stepRecord limits stream none) (ScanState.retained none source)
      purged = .ok st := by
  rcases scanLog_cons.1 hscan with ⟨-, hrun⟩ | ⟨hretained, hrun⟩
  · obtain ⟨next, hnext, -⟩ := runM_cons_eq_ok.1 hrun
    obtain ⟨-, -, openTurn, messages, hfold, -⟩ := stepRecord_eq_ok_iff.1 hnext
    obtain ⟨hclosed, -⟩ := (foldRecord_turnClosed hsource).1 hfold
    obtain ⟨turn, hturn, -⟩ := foldTurnClosed_eq_ok_iff.1 hclosed
    cases hturn
  · exact ⟨hretained.purged, hrun⟩

theorem scanLog_snapshotRevision {records : List DurableTranscriptRecord} {st : ScanState}
    (h : scanLog limits stream none records = .ok st) :
    snapshotRevision limits st.actualRevision = .ok () := by
  refine scanLog_invariant (fun s => snapshotRevision limits s.actualRevision = .ok ()) rfl
    (fun _ => rfl) (fun _ hadmits _ => snapshotRevision_of_admits hadmits) ?_ h
  intro s record s' _ hstep
  obtain ⟨hadmits, -, openTurn, messages, -, rfl⟩ := stepRecord_eq_ok_iff.1 hstep
  exact snapshotRevision_of_admits hadmits

theorem scanCommitted_of_scanLog {records : List DurableTranscriptRecord} {st : ScanState}
    (h : scanLog limits stream none records = .ok st) :
    scanCommittedTranscript limits stream ⟨headRevision records, records⟩ none = .ok st := by
  have hhead := scanLog_actualRevision h
  refine scanCommittedTranscript_eq_ok_iff.2 ⟨?_, h, hhead.symm, by simp⟩
  rw [← hhead]
  exact scanLog_snapshotRevision h

/-- A log that survives the purge keeps its operations: a run whose operation was
purged could be closed in the whole log, but not in what is left. -/
theorem runsOutlive_of_survives {st : ScanState}
    (hlimits : limits.maxRecordBytes ≤ maxSafeInteger) (hne : before ≠ [])
    (hsource : source.data = .turnClosed .completed)
    (hscan : scanLog limits stream none (before ++ source :: checkpoint :: rest) = .ok st)
    (hsurvives : SurvivesPurge stream (before ++ source :: checkpoint :: rest)
      (source :: checkpoint :: rest)) :
    1 < source.sequence ∧ RunsOutlivePurge before (source :: checkpoint :: rest) := by
  have hkept : ∀ limits' more st', scanLog limits' stream none
        ((before ++ source :: checkpoint :: rest) ++ more) = .ok st' →
      ∃ t, scanLog limits' stream none (source :: (checkpoint :: rest ++ more)) = .ok t := by
    intro limits' more st' hmore
    obtain ⟨t, ht, -⟩ := hsurvives limits' more st' (scanCommitted_of_scanLog hmore)
    exact ⟨t, (scanCommittedTranscript_eq_ok_iff.1 ht).2.1⟩
  obtain ⟨t, ht⟩ := hkept limits [] st (by rw [List.append_nil]; exact hscan)
  obtain ⟨hpurged, hrun⟩ := retained_of_purged hsource ht
  rw [List.append_nil] at hrun
  refine ⟨hpurged, ?_⟩
  intro runId hopener
  by_contra hlost
  rw [not_or] at hlost
  obtain ⟨hunclosed, hunopened⟩ := hlost
  have hnever : ∀ more, (∃ record ∈ more, record.ClosesRun runId) →
      (∀ record ∈ more, ¬ record.OpensFor runId) → ∀ limits' st', scanLog limits' stream none
        ((before ++ source :: checkpoint :: rest) ++ more) ≠ .ok st' := by
    intro more hcloses hopens limits' st' hmore
    obtain ⟨t', ht'⟩ := hkept limits' more st' hmore
    obtain ⟨record, hmem, hclose⟩ := hcloses
    obtain ⟨opener, hmem', hopen⟩ := opens_before_closes (retained_of_purged hsource ht').2 rfl
      ⟨record, List.mem_append.2 (Or.inr hmem), hclose⟩
    rcases List.mem_append.1 hmem' with h | h
    · exact hunopened ⟨opener, List.mem_cons_of_mem _ h, hopen⟩
    · exact hopens opener h hopen
  obtain ⟨s, hrest, hlatest, hclosed⟩ := scanLog_at_source hne hsource hscan
  have hhas := (has_latestDeferredOrigins_runM hrest).2 (Or.inl ((hlatest runId).2 hopener))
  obtain ⟨origin, horigin⟩ := OrderedMap.has_iff.1 hhas
  by_cases hmem : runId ∈ st.closedDeferredRuns
  · -- The run was closed behind the checkpoint: the purged log refuses that record.
    rcases (mem_closedDeferredRuns_runM hrest).1 hmem with hc | ⟨record, hrecord, hcloses⟩
    · exact hunclosed ((hclosed runId).1 hc)
    · rcases List.mem_cons.1 hrecord with rfl | hrecord
      · obtain ⟨-, d, hd⟩ := hcloses
        rw [hsource] at hd
        cases hd
      · obtain ⟨opener, hopener', hopens⟩ :=
          opens_before_closes hrun rfl ⟨record, hrecord, hcloses⟩
        exact hunopened ⟨opener, List.mem_cons_of_mem _ hopener', hopens⟩
  · -- The run is still open: some continuation closes it, and only the whole log takes it.
    obtain ⟨more, st', ⟨limits', haccepted⟩, hcloses, hopens⟩ :=
      accepted_run_closed (by simp) ⟨limits, hscan⟩ (coherent_scan hscan)
        (sound_scan hlimits hscan) horigin hmem
    exact hnever more hcloses hopens limits' st' haccepted

/-- Dropping nothing keeps everything. -/
theorem survives_refl (records : List DurableTranscriptRecord) :
    SurvivesPurge stream records records :=
  fun _ _ st h => ⟨st, h, rfl, rfl⟩

/-- A purge keeps the log acceptable exactly when no run needs what it purges. -/
theorem survives_iff_keepsRuns {st : ScanState} {records purged : List DurableTranscriptRecord}
    {request : TranscriptCheckpointPurgeRequest} {result : TranscriptCheckpointPurgeResult}
    (hlimits : limits.maxRecordBytes ≤ maxSafeInteger)
    (hscan : scanCommittedTranscript limits stream ⟨headRevision records, records⟩ none = .ok st)
    (hpurge : purgeBeforeCheckpoint records request = .ok (purged, result)) :
    SurvivesPurge stream records purged ↔ PurgeKeepsRuns records request := by
  obtain ⟨before, source, checkpoint, data, rest, hcheckpoint, rfl⟩ :=
    purgeBeforeCheckpoint_eq_ok hpurge
  have hlog := (scanCommittedTranscript_eq_ok_iff.1 hscan).2.1
  have hsource := boundary_source hcheckpoint.boundary
  dsimp only at hlog
  rw [hcheckpoint.records_eq] at hlog
  cases hblocked : request.isBlocked before.length source.sequence with
  | true =>
    rw [if_pos rfl]
    refine ⟨fun _ => ?_, fun _ => survives_refl records⟩
    intro before' source' checkpoint' data' rest' h'
    obtain ⟨rfl, rfl, -, -⟩ := hcheckpoint.unique h'
    exact Or.inl hblocked
  | false =>
    rw [if_neg Bool.false_ne_true]
    by_cases hne : before = []
    · -- The log already begins at the source: nothing is dropped.
      subst hne
      rw [List.nil_append] at hlog
      have hrecords := hcheckpoint.records_eq
      rw [List.nil_append] at hrecords
      rw [hrecords]
      refine ⟨fun _ => ?_, fun _ => survives_refl _⟩
      rw [← hrecords]
      intro before' source' checkpoint' data' rest' h'
      obtain ⟨rfl, rfl, -, -⟩ := hcheckpoint.unique h'
      refine Or.inr ⟨(retained_of_purged hsource hlog).1, ?_⟩
      rintro runId ⟨record, hmem, -⟩
      cases hmem
    · rw [hcheckpoint.records_eq]
      constructor
      · intro hsurvives
        rw [← hcheckpoint.records_eq]
        intro before' source' checkpoint' data' rest' h'
        obtain ⟨rfl, rfl, rfl, rfl⟩ := hcheckpoint.unique h'
        exact Or.inr (runsOutlive_of_survives hlimits hne hsource hlog hsurvives)
      · intro hkeeps
        rw [← hcheckpoint.records_eq] at hkeeps
        rcases hkeeps before source checkpoint data rest hcheckpoint with hb | ⟨hpurged, hruns⟩
        · rw [hblocked] at hb
          cases hb
        · exact survives_of_runsOutlive hne hpurged hcheckpoint.data_eq hcheckpoint.boundary hruns

end Purge

end OpenGameAgent
