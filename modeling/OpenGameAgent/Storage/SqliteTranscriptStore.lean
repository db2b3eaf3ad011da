import OpenGameAgent.Agent.TranscriptRetention

/-!
# The SQLite transcript store

`load` and `purgeBeforeCheckpoint` of
`packages/storage-sqlite/src/sqlite-transcript-store.ts`, and that they do to a
stored stream what the in-memory store does.

A stream is its row in `oga_transcript_streams` and its rows in
`oga_transcript_records`, ordered by sequence.  The columns of a record row other
than `record_json` repeat parts of the record, so a row is its record here; its
`record_bytes` is `DurableTranscriptRecord.bytes`.
-/

namespace OpenGameAgent

/-! ## The tables -/

structure StreamRow where
  revision : Nat
  recordCount : Nat
  storedBytes : Nat
  retainedFromSequence : Nat
  deriving DecidableEq, Repr

structure SqliteTranscript where
  head : Option StreamRow
  rows : List DurableTranscriptRecord

def sqliteIntegerMax : Nat := 9223372036854775807

/-- `assertValidHead`. -/
def assertValidHead (head : StreamRow) : Except TranscriptError Unit :=
  if head.revision = 0 ∨ head.recordCount ≠ head.revision ∨ head.storedBytes = 0 ∨
      head.retainedFromSequence = 0 ∨ head.revision < head.retainedFromSequence then
    .error .corruption
  else .ok ()

/-- `hydrateRecord`. -/
def hydrateRecord (stream : StreamKey) (expectedSequence : Nat) (row : DurableTranscriptRecord) :
    Except TranscriptError Unit :=
  if row.sequence = expectedSequence ∧ DurableTranscriptRecord.valid row = true ∧
      assertEventStreamCoordinate stream row.coordinate = .ok () then .ok ()
  else .error .corruption

def storedBytes (rows : List DurableTranscriptRecord) : Nat :=
  (rows.map DurableTranscriptRecord.bytes).sum

/-- `assertRecordAggregate`; the rows are ordered by sequence, so the first and the last
have the least and the greatest. -/
def assertRecordAggregate (rows : List DurableTranscriptRecord) (head : StreamRow) :
    Except TranscriptError Unit :=
  if rows.length ≠ head.revision - head.retainedFromSequence + 1 ∨
      rows.head?.map RecordOf.sequence ≠ some head.retainedFromSequence ∨
      rows.getLast?.map RecordOf.sequence ≠ some head.revision ∨
      storedBytes rows ≠ head.storedBytes then .error .corruption
  else .ok ()

/-- The loop of `load` over the rows. -/
def hydrateRows (stream : StreamKey) (expectedSequence : Nat) :
    List DurableTranscriptRecord → Except TranscriptError Unit
  | [] => .ok ()
  | row :: rest => do
    hydrateRecord stream expectedSequence row
    hydrateRows stream (expectedSequence + 1) rest

/-- `SqliteTranscriptStore.load`. -/
def SqliteTranscript.load (store : SqliteTranscript) (stream : StreamKey) (maxBytes : Nat) :
    Except TranscriptError TranscriptStoredStream :=
  match store.head with
  | none => .ok ⟨.empty, []⟩
  | some head => do
    assertValidHead head
    if head.storedBytes > maxBytes then
      .error (.range "The durable transcript exceeds the restore budget.")
    else do
      assertRecordAggregate store.rows head
      hydrateRows stream head.retainedFromSequence store.rows
      return ⟨.at head.revision, store.rows⟩

/-- `captureCheckpointPurgeRequest` of this store, which also bounds the revisions. -/
def captureSqlitePurgeRequest (request : TranscriptCheckpointPurgeRequest) :
    Except TranscriptError Unit := do
  captureCheckpointPurgeRequest request
  if request.checkpointRevision > sqliteIntegerMax ∨
      request.retainRevisions.any (fun
        | .empty => false
        | .at sequence => sequence > sqliteIntegerMax) then
    .error (.range "The durable transcript revision exceeds SQLite's integer range.")
  else return ()

/-- `checkpointPurgeResult`. -/
def checkpointPurgeResult (head : StreamRow) (purgedRecordCount : Nat) :
    TranscriptCheckpointPurgeResult where
  purgedRecordCount := purgedRecordCount
  earliestAvailableRevision := some head.retainedFromSequence
  latestRevision := .at head.revision

/-- `SqliteTranscriptStore.purgeBeforeCheckpoint`, with the stream it leaves. -/
def SqliteTranscript.purgeBeforeCheckpoint (store : SqliteTranscript) (stream : StreamKey)
    (request : TranscriptCheckpointPurgeRequest) :
    Except TranscriptError (SqliteTranscript × TranscriptCheckpointPurgeResult) := do
  captureSqlitePurgeRequest request
  match store.head with
  | none => .error (.type "The requested transcript checkpoint is unavailable.")
  | some head => do
    assertValidHead head
    match store.rows.find? (fun row => row.sequence = request.checkpointRevision) with
    | none => .error (.type "The requested transcript checkpoint is unavailable.")
    | some checkpoint => do
      hydrateRecord stream request.checkpointRevision checkpoint
      match checkpoint.data with
      | .contextCheckpoint data =>
        match store.rows.find? (fun row => row.sequence = data.sourceRevision) with
        | none => .error (.type "The transcript checkpoint source boundary is unavailable.")
        | some source => do
          hydrateRecord stream data.sourceRevision source
          assertExactTranscriptCheckpointBoundary checkpoint data source
          let purgeCount : Int := (data.sourceRevision : Int) - head.retainedFromSequence
          if purgeCount > request.limit ||
              request.retainRevisions.any
                (TranscriptRevision.protects data.sourceRevision) then
            return (store, checkpointPurgeResult head 0)
          else if purgeCount = 0 then return (store, checkpointPurgeResult head 0)
          else
            let purged := store.rows.filter fun row =>
              head.retainedFromSequence ≤ row.sequence && row.sequence < data.sourceRevision
            if (purged.length : Int) ≠ purgeCount ∨ storedBytes purged = 0 then
              .error .corruption
            else
              let retained : StreamRow :=
                { head with
                  retainedFromSequence := data.sourceRevision
                  storedBytes := head.storedBytes - storedBytes purged }
              return (⟨some retained,
                  store.rows.filter fun row => !(row.sequence < data.sourceRevision)⟩,
                checkpointPurgeResult retained purgeCount.toNat)
      | _ => .error (.type "The requested revision is not a checkpoint.")

/-! ## A stream that loads -/

/-- Sequences run without a gap from the first. -/
theorem hydrateRows_sequence {stream : StreamKey} {first : Nat}
    {rows : List DurableTranscriptRecord} (h : hydrateRows stream first rows = .ok ()) :
    ∀ i row, rows[i]? = some row → row.sequence = first + i := by
  induction rows generalizing first with
  | nil => intro i row hrow; simp at hrow
  | cons head rest ih =>
    obtain ⟨_, hhead, hrest⟩ := bind_eq_ok.1 h
    intro i row hrow
    cases i with
    | zero =>
      rw [List.getElem?_cons_zero, Option.some.injEq] at hrow
      subst hrow
      unfold hydrateRecord at hhead
      split at hhead
      · rename_i hok
        exact hok.1
      · cases hhead
    | succ i =>
      rw [List.getElem?_cons_succ] at hrow
      rw [ih hrest i row hrow]
      omega

theorem hydrateRows_drop {stream : StreamKey} {first : Nat}
    {rows : List DurableTranscriptRecord} (h : hydrateRows stream first rows = .ok ()) (n : Nat) :
    n ≤ rows.length → hydrateRows stream (first + n) (rows.drop n) = .ok () := by
  induction n generalizing first rows with
  | zero => intro _; exact h
  | succ n ih =>
    intro hle
    cases rows with
    | nil => simp at hle
    | cons head rest =>
      obtain ⟨_, -, hrest⟩ := bind_eq_ok.1 h
      rw [List.drop_succ_cons, show first + (n + 1) = first + 1 + n by omega]
      exact ih hrest (by simpa using hle)

/-- A row is found by its sequence at its offset from the first. -/
theorem find_sequence {first sequence : Nat} {rows : List DurableTranscriptRecord}
    (hrows : ∀ i row, rows[i]? = some row → row.sequence = first + i)
    {row : DurableTranscriptRecord}
    (h : rows.find? (fun row => row.sequence = sequence) = some row) :
    row.sequence = sequence ∧ ∃ i, sequence = first + i ∧ rows[i]? = some row ∧
      rows.findIdx? (fun row => row.sequence = sequence) = some i := by
  have hmem := List.mem_of_find?_eq_some h
  have hseq : row.sequence = sequence := by simpa using List.find?_some h
  obtain ⟨i, hi⟩ := List.getElem?_of_mem hmem
  have hoffset := hrows i row hi
  refine ⟨hseq, i, by omega, hi, ?_⟩
  obtain ⟨hlt, hget⟩ := List.getElem?_eq_some_iff.1 hi
  rw [List.findIdx?_eq_some_iff_getElem]
  refine ⟨hlt, by simpa [hget] using hseq, ?_⟩
  intro j hj
  have hother := hrows j rows[j] (List.getElem?_eq_getElem (by omega))
  simp only [decide_eq_true_eq]
  omega

/-- The rows below a sequence are the first ones. -/
theorem filter_below {first : Nat} {rows : List DurableTranscriptRecord}
    (hrows : ∀ i row, rows[i]? = some row → row.sequence = first + i) (n : Nat) :
    (rows.filter fun row => decide (first ≤ row.sequence) && decide (row.sequence < first + n)) =
        rows.take n ∧
      (rows.filter fun row => !decide (row.sequence < first + n)) = rows.drop n := by
  induction rows generalizing first n with
  | nil => simp
  | cons head rest ih =>
    have hhead : head.sequence = first := by simpa using hrows 0 head rfl
    have hrest : ∀ i row, rest[i]? = some row → row.sequence = first + 1 + i := by
      intro i row hrow
      have := hrows (i + 1) row (by simpa using hrow)
      omega
    cases n with
    | zero =>
      obtain ⟨h1, h2⟩ := ih hrest 0
      have hall : ∀ row ∈ rest, first + 1 ≤ row.sequence := by
        intro row hmem
        obtain ⟨i, hi⟩ := List.getElem?_of_mem hmem
        have := hrest i row hi
        omega
      constructor
      · rw [List.take_zero, List.filter_eq_nil_iff]
        intro row hmem
        rcases List.mem_cons.1 hmem with rfl | hmem
        · simp [hhead]
        · have := hall row hmem
          simp only [Bool.and_eq_true, decide_eq_true_eq, not_and, not_lt]
          omega
      · rw [List.drop_zero, List.filter_eq_self]
        intro row hmem
        rcases List.mem_cons.1 hmem with rfl | hmem
        · simp [hhead]
        · have := hall row hmem
          simp only [Bool.not_eq_true', decide_eq_false_iff_not, not_lt]
          omega
    | succ n =>
      obtain ⟨h1, h2⟩ := ih hrest n
      have hshift : first + (n + 1) = first + 1 + n := by omega
      constructor
      · rw [List.filter_cons_of_pos (by simp [hhead]), List.take_succ_cons, ← h1, hshift]
        congr 1
        refine List.filter_congr fun row hmem => ?_
        obtain ⟨i, hi⟩ := List.getElem?_of_mem hmem
        have hseq := hrest i row hi
        have hle : first ≤ row.sequence := by omega
        have hle' : first + 1 ≤ row.sequence := by omega
        simp only [hle, hle', decide_true]
      · rw [List.filter_cons_of_neg (by simp [hhead]), List.drop_succ_cons, ← h2, hshift]

/-- What a stream row says about the rows of its stream. -/
structure Agrees (stream : StreamKey) (maxBytes : Nat) (head : StreamRow)
    (rows : List DurableTranscriptRecord) : Prop where
  valid : assertValidHead head = .ok ()
  budget : head.storedBytes ≤ maxBytes
  aggregate : assertRecordAggregate rows head = .ok ()
  hydrated : hydrateRows stream head.retainedFromSequence rows = .ok ()

theorem load_eq_ok_iff {store : SqliteTranscript} {stream : StreamKey} {maxBytes : Nat}
    {head : StreamRow} (hhead : store.head = some head) {loaded : TranscriptStoredStream} :
    store.load stream maxBytes = .ok loaded ↔
      Agrees stream maxBytes head store.rows ∧ loaded = ⟨.at head.revision, store.rows⟩ := by
  unfold SqliteTranscript.load
  rw [hhead]
  simp only [bind_eq_ok]
  constructor
  · rintro ⟨_, hvalid, h⟩
    split at h
    · cases h
    · rename_i hbudget
      obtain ⟨_, haggregate, h⟩ := bind_eq_ok.1 h
      obtain ⟨_, hhydrated, h⟩ := bind_eq_ok.1 h
      cases h
      exact ⟨⟨hvalid, by omega, haggregate, hhydrated⟩, rfl⟩
  · rintro ⟨⟨hvalid, hbudget, haggregate, hhydrated⟩, rfl⟩
    refine ⟨(), hvalid, ?_⟩
    rw [if_neg (by omega)]
    exact bind_eq_ok.2 ⟨(), haggregate, bind_eq_ok.2 ⟨(), hhydrated, rfl⟩⟩

theorem assertValidHead_eq_ok_iff {head : StreamRow} :
    assertValidHead head = .ok () ↔ head.revision ≠ 0 ∧ head.recordCount = head.revision ∧
      head.storedBytes ≠ 0 ∧ head.retainedFromSequence ≠ 0 ∧
      head.retainedFromSequence ≤ head.revision := by
  unfold assertValidHead
  split
  · rename_i h
    simp only [reduceCtorEq, false_iff]
    omega
  · rename_i h
    simp only [true_iff]
    omega

theorem assertRecordAggregate_eq_ok_iff {head : StreamRow} {rows : List DurableTranscriptRecord} :
    assertRecordAggregate rows head = .ok () ↔
      rows.length = head.revision - head.retainedFromSequence + 1 ∧
      rows.head?.map RecordOf.sequence = some head.retainedFromSequence ∧
      rows.getLast?.map RecordOf.sequence = some head.revision ∧
      storedBytes rows = head.storedBytes := by
  unfold assertRecordAggregate
  split
  · rename_i h
    simp only [reduceCtorEq, false_iff]
    rintro ⟨h1, h2, h3, h4⟩
    rcases h with h | h | h | h <;> contradiction
  · rename_i h
    simp only [not_or, not_not] at h
    simp only [h, and_self]

theorem one_le_bytes (record : DurableTranscriptRecord) :
    1 ≤ DurableTranscriptRecord.bytes record := by
  rw [DurableTranscriptRecord.bytes, jsonBytes_eq_canonicalBytes]
  simp only [DurableTranscriptRecord.toJson, JsonValue.record, canonicalBytes]
  omega

theorem storedBytes_append (a b : List DurableTranscriptRecord) :
    storedBytes (a ++ b) = storedBytes a + storedBytes b := by
  simp [storedBytes]

theorem headRevision_of_getLast {rows : List DurableTranscriptRecord} {sequence : Nat}
    (h : rows.getLast?.map RecordOf.sequence = some sequence) :
    headRevision rows = .at sequence := by
  obtain ⟨last, hlast, rfl⟩ := Option.map_eq_some_iff.1 h
  rw [headRevision, hlast]

/-- Dropping the first rows, with their bytes and their sequences, leaves a stream that loads. -/
theorem Agrees.drop {stream : StreamKey} {maxBytes : Nat} {head : StreamRow}
    {rows : List DurableTranscriptRecord} (h : Agrees stream maxBytes head rows) {n : Nat}
    (hn : n < rows.length) :
    Agrees stream maxBytes
      { head with
        retainedFromSequence := head.retainedFromSequence + n
        storedBytes := head.storedBytes - storedBytes (rows.take n) } (rows.drop n) := by
  obtain ⟨v1, v2, v3, v4, v5⟩ := assertValidHead_eq_ok_iff.1 h.valid
  obtain ⟨a1, a2, a3, a4⟩ := assertRecordAggregate_eq_ok_iff.1 h.aggregate
  have hsplit : storedBytes (rows.take n) + storedBytes (rows.drop n) = head.storedBytes := by
    rw [← storedBytes_append, List.take_append_drop, a4]
  have hnonempty : rows.drop n ≠ [] := by
    intro hc
    rw [List.drop_eq_nil_iff] at hc
    omega
  have hpositive : 0 < storedBytes (rows.drop n) := by
    obtain ⟨row, rest, hrow⟩ := List.exists_cons_of_ne_nil hnonempty
    rw [hrow]
    have := one_le_bytes row
    simp only [storedBytes, List.map_cons, List.sum_cons]
    omega
  have hbudget := h.budget
  refine ⟨assertValidHead_eq_ok_iff.2 ⟨v1, v2, ?_, ?_, ?_⟩, ?_,
    assertRecordAggregate_eq_ok_iff.2 ⟨?_, ?_, ?_, ?_⟩, hydrateRows_drop h.hydrated n (by omega)⟩
  · show head.storedBytes - storedBytes (rows.take n) ≠ 0
    omega
  · show head.retainedFromSequence + n ≠ 0
    omega
  · show head.retainedFromSequence + n ≤ head.revision
    omega
  · show head.storedBytes - storedBytes (rows.take n) ≤ maxBytes
    omega
  · show (rows.drop n).length = head.revision - (head.retainedFromSequence + n) + 1
    rw [List.length_drop]
    omega
  · have hfirst := hydrateRows_sequence h.hydrated n rows[n] (List.getElem?_eq_getElem hn)
    rw [List.head?_drop, List.getElem?_eq_getElem hn, Option.map_some, hfirst]
  · rw [List.getLast?_drop, if_neg (by omega)]
    exact a3
  · show storedBytes (rows.drop n) = head.storedBytes - storedBytes (rows.take n)
    omega

/-- The SQLite purge does to the rows of a stream what the in-memory purge does to its
records, and leaves a stream that loads. -/
theorem sqlitePurge_refines {store store' : SqliteTranscript} {stream : StreamKey} {maxBytes : Nat}
    {revision : TranscriptRevision} {records : List DurableTranscriptRecord}
    {request : TranscriptCheckpointPurgeRequest} {result : TranscriptCheckpointPurgeResult}
    (hload : store.load stream maxBytes = .ok ⟨revision, records⟩)
    (hpurge : store.purgeBeforeCheckpoint stream request = .ok (store', result)) :
    revision = headRevision records ∧
    ∃ purged, purgeBeforeCheckpoint records request = .ok (purged, result) ∧
      store'.load stream maxBytes = .ok ⟨revision, purged⟩ := by
  unfold SqliteTranscript.purgeBeforeCheckpoint at hpurge
  obtain ⟨_, hcapture, hpurge⟩ := bind_eq_ok.1 hpurge
  obtain ⟨_, hcaptured, -⟩ := bind_eq_ok.1 hcapture
  split at hpurge
  · cases hpurge
  · rename_i head hhead
    obtain ⟨hagrees, hloaded⟩ := (load_eq_ok_iff hhead).1 hload
    cases hloaded
    obtain ⟨a1, a2, a3, a4⟩ := assertRecordAggregate_eq_ok_iff.1 hagrees.aggregate
    have hrevision := headRevision_of_getLast a3
    refine ⟨hrevision.symm, ?_⟩
    have hsequence := hydrateRows_sequence hagrees.hydrated
    obtain ⟨_, -, hpurge⟩ := bind_eq_ok.1 hpurge
    split at hpurge
    · cases hpurge
    · rename_i checkpoint hfindCheckpoint
      obtain ⟨_, -, hpurge⟩ := bind_eq_ok.1 hpurge
      split at hpurge
      · rename_i data hdata
        split at hpurge
        · cases hpurge
        · rename_i source hfindSource
          obtain ⟨_, -, hpurge⟩ := bind_eq_ok.1 hpurge
          obtain ⟨_, hboundary, hpurge⟩ := bind_eq_ok.1 hpurge
          obtain ⟨hcseq, j, hj, hcheckpointAt, hcheckpointIdx⟩ :=
            find_sequence hsequence hfindCheckpoint
          obtain ⟨hsseq, i, hi, hsourceAt, -⟩ := find_sequence hsequence hfindSource
          have hnext : checkpoint.sequence = source.sequence + 1 := by
            unfold assertExactTranscriptCheckpointBoundary at hboundary
            split at hboundary
            · split at hboundary
              · rename_i hconds
                exact hconds.1
              · cases hboundary
            · cases hboundary
          have hji : j = i + 1 := by omega
          subst hji
          have hlt : i < store.rows.length := (List.getElem?_eq_some_iff.1 hsourceAt).1
          have hblocked : (decide ((data.sourceRevision : Int) - head.retainedFromSequence >
              request.limit) || request.retainRevisions.any
                (TranscriptRevision.protects data.sourceRevision)) =
              request.isBlocked i source.sequence := by
            rw [TranscriptCheckpointPurgeRequest.isBlocked, hsseq]
            congr 1
            rw [decide_eq_decide]
            omega
          have hmemory : ∀ outcome,
              purgeBeforeCheckpoint store.rows request = .ok outcome ↔
                (if request.isBlocked i source.sequence then
                  (store.rows, transcriptPurgeResult store.rows 0)
                else (store.rows.drop i, transcriptPurgeResult (store.rows.drop i) i)) =
                  outcome := by
            intro outcome
            unfold purgeBeforeCheckpoint
            rw [hcaptured]
            simp only [bind, Except.bind, hcheckpointIdx, hcheckpointAt, hsourceAt, hdata,
              hboundary]
            split <;> simp [pure, Except.pure]
          have hresult : ∀ n, transcriptPurgeResult store.rows n = checkpointPurgeResult head n := by
            intro n
            simp only [transcriptPurgeResult, checkpointPurgeResult, a2, hrevision]
          dsimp only at hpurge
          rw [hblocked] at hpurge
          split at hpurge
          · rename_i hb
            cases hpurge
            refine ⟨store.rows, (hmemory _).2 ?_, hload⟩
            rw [if_pos hb, hresult]
          · rename_i hb
            split at hpurge
            · rename_i hzero
              cases hpurge
              have hi0 : i = 0 := by omega
              subst hi0
              refine ⟨store.rows, (hmemory _).2 ?_, hload⟩
              rw [if_neg hb, List.drop_zero, hresult]
            · split at hpurge
              · cases hpurge
              · cases hpurge
                have hdrop := hagrees.drop hlt
                obtain ⟨htake, hrest⟩ := filter_below hsequence i
                rw [← hi] at htake hrest
                have hcount : ((data.sourceRevision : Int) - head.retainedFromSequence).toNat = i := by
                  omega
                have hfirst : (store.rows.drop i).head?.map RecordOf.sequence =
                    some data.sourceRevision := by
                  rw [List.head?_drop, hsourceAt, Option.map_some, hsseq]
                have hlast : headRevision (store.rows.drop i) = .at head.revision := by
                  refine headRevision_of_getLast ?_
                  rw [List.getLast?_drop, if_neg (by omega)]
                  exact a3
                refine ⟨store.rows.drop i, (hmemory _).2 ?_, ?_⟩
                · rw [if_neg hb, hcount, transcriptPurgeResult, hfirst, hlast]
                  rfl
                · rw [htake, hrest, hi]
                  exact (load_eq_ok_iff rfl).2 ⟨hdrop, rfl⟩
      · cases hpurge

/-! ## When a purge keeps a stored log acceptable -/

/-- In either store, what a purge leaves of an accepted log is accepted, and stays
acceptable under every continuation, exactly when no run still needs what it purges. -/
theorem purge_survives_iff (limits : TranscriptLimits) (stream : StreamKey)
    (records : List DurableTranscriptRecord) (request : TranscriptCheckpointPurgeRequest)
    (st : ScanState) (hlimits : limits.maxRecordBytes ≤ maxSafeInteger)
    (hscan : scanCommittedTranscript limits stream ⟨headRevision records, records⟩ none = .ok st) :
    (∀ purged result, purgeBeforeCheckpoint records request = .ok (purged, result) →
      (SurvivesPurge stream records purged ↔ PurgeKeepsRuns records request)) ∧
    ∀ (store store' : SqliteTranscript) maxBytes revision result,
      store.load stream maxBytes = .ok ⟨revision, records⟩ →
      store.purgeBeforeCheckpoint stream request = .ok (store', result) →
      ∃ purged, store'.load stream maxBytes = .ok ⟨revision, purged⟩ ∧
        (SurvivesPurge stream records purged ↔ PurgeKeepsRuns records request) := by
  refine ⟨fun purged result hpurge => survives_iff_keepsRuns hlimits hscan hpurge, ?_⟩
  intro store store' maxBytes revision result hload hpurge
  obtain ⟨-, purged, hmemory, hload'⟩ := sqlitePurge_refines hload hpurge
  exact ⟨purged, hload', survives_iff_keepsRuns hlimits hscan hmemory⟩

/-- A run that was deferred, resumed and compacted before it was closed. -/
def compactedDeferredRun : List DurableTranscriptRecord :=
  let coordinate : RunCoordinate := ⟨"s", "a", "run", 0⟩
  [ ⟨"r1", 1, coordinate, .deferredOpened ⟨"op", ⟨"in", .null, none⟩,
      ⟨"p", "m", "api", "h", none, none, none⟩, none, none⟩⟩,
    ⟨"r2", 2, coordinate, .deferredCompleted ⟨"op", "r1",
      ⟨[.text "Done"], "api", "p", "m", none, .stop, 0⟩⟩⟩,
    ⟨"r3", 3, coordinate, .turnClosed .completed⟩,
    ⟨"r4", 4, coordinate, .contextCheckpoint ⟨3, "r3", [.user (.text "Hi" 0)]⟩⟩,
    ⟨"r5", 5, coordinate, .deferredRunClosed ⟨"op", "in", .completed⟩⟩ ]

def compactedDeferredStream : SqliteTranscript where
  head := some ⟨5, 5, storedBytes compactedDeferredRun, 1⟩
  rows := compactedDeferredRun

def purgeAtCheckpoint : TranscriptCheckpointPurgeRequest := ⟨4, 10, [], 0, 0⟩

/-- The log is accepted and loads; both stores purge it, and what is left is refused. -/
theorem compactedDeferredRun_purge :
    ∃ st purged store' result,
      scanCommittedTranscript ⟨1000, 1000, 10000, 20⟩ ⟨"s", "a"⟩ ⟨.at 5, compactedDeferredRun⟩
        none = .ok st ∧
      compactedDeferredStream.load ⟨"s", "a"⟩ 10000 = .ok ⟨.at 5, compactedDeferredRun⟩ ∧
      purgeBeforeCheckpoint compactedDeferredRun purgeAtCheckpoint = .ok (purged, result) ∧
      compactedDeferredStream.purgeBeforeCheckpoint ⟨"s", "a"⟩ purgeAtCheckpoint =
        .ok (store', result) ∧
      store'.load ⟨"s", "a"⟩ 10000 = .ok ⟨.at 5, purged⟩ ∧
      ∀ st', scanCommittedTranscript ⟨1000, 1000, 10000, 20⟩ ⟨"s", "a"⟩ ⟨.at 5, purged⟩ none ≠
        .ok st' := by
  have h : (do
      let _ ← scanCommittedTranscript ⟨1000, 1000, 10000, 20⟩ ⟨"s", "a"⟩
        ⟨.at 5, compactedDeferredRun⟩ none
      let _ ← compactedDeferredStream.load ⟨"s", "a"⟩ 10000
      let _ ← compactedDeferredStream.purgeBeforeCheckpoint ⟨"s", "a"⟩ purgeAtCheckpoint
      let (purged, _) ← purgeBeforeCheckpoint compactedDeferredRun purgeAtCheckpoint
      return (scanCommittedTranscript ⟨1000, 1000, 10000, 20⟩ ⟨"s", "a"⟩
        ⟨.at 5, purged⟩ none).isOk) = .ok false := by
    decide +kernel
  obtain ⟨st, hscan, h⟩ := bind_eq_ok.1 h
  obtain ⟨loaded, hload, h⟩ := bind_eq_ok.1 h
  obtain ⟨⟨store', result⟩, hpurge, h⟩ := bind_eq_ok.1 h
  have hread : loaded = ⟨.at 5, compactedDeferredRun⟩ := ((load_eq_ok_iff rfl).1 hload).2
  subst hread
  obtain ⟨-, purged, hmemory, hload'⟩ := sqlitePurge_refines hload hpurge
  rw [hmemory] at h
  refine ⟨st, purged, store', result, hscan, hload, hmemory, hpurge, hload', ?_⟩
  intro st' hst'
  have hrefused : (false : Bool) = true := by
    simpa [bind, Except.bind, pure, Except.pure, hst', Except.isOk, Except.toBool] using h.symm
  cases hrefused

theorem purge_survives_iff_compacted :
    (∀ purged result, purgeBeforeCheckpoint compactedDeferredRun purgeAtCheckpoint =
        .ok (purged, result) →
      (SurvivesPurge ⟨"s", "a"⟩ compactedDeferredRun purged ↔
        PurgeKeepsRuns compactedDeferredRun purgeAtCheckpoint)) ∧
    ∃ purged store' result,
      compactedDeferredStream.purgeBeforeCheckpoint ⟨"s", "a"⟩ purgeAtCheckpoint =
        .ok (store', result) ∧
      store'.load ⟨"s", "a"⟩ 10000 = .ok ⟨.at 5, purged⟩ ∧
      (SurvivesPurge ⟨"s", "a"⟩ compactedDeferredRun purged ↔
        PurgeKeepsRuns compactedDeferredRun purgeAtCheckpoint) := by
  obtain ⟨st, -, store', result, hscan, hload, -, hpurge, -⟩ := compactedDeferredRun_purge
  obtain ⟨hmemory, hsqlite⟩ := purge_survives_iff ⟨1000, 1000, 10000, 20⟩ ⟨"s", "a"⟩
    compactedDeferredRun purgeAtCheckpoint st (by decide) hscan
  obtain ⟨purged, hload', hiff⟩ := hsqlite compactedDeferredStream store' 10000 (.at 5) result
    hload hpurge
  exact ⟨hmemory, purged, store', result, hpurge, hload', hiff⟩

/-- The purge takes the run's operation away, and its closure is refused from then on. -/
theorem purge_bricks_compacted_run :
    ∃ st purged store' result,
      scanCommittedTranscript ⟨1000, 1000, 10000, 20⟩ ⟨"s", "a"⟩ ⟨.at 5, compactedDeferredRun⟩
        none = .ok st ∧
      compactedDeferredStream.load ⟨"s", "a"⟩ 10000 = .ok ⟨.at 5, compactedDeferredRun⟩ ∧
      purgeBeforeCheckpoint compactedDeferredRun purgeAtCheckpoint = .ok (purged, result) ∧
      compactedDeferredStream.purgeBeforeCheckpoint ⟨"s", "a"⟩ purgeAtCheckpoint =
        .ok (store', result) ∧
      store'.load ⟨"s", "a"⟩ 10000 = .ok ⟨.at 5, purged⟩ ∧
      (∀ st', scanCommittedTranscript ⟨1000, 1000, 10000, 20⟩ ⟨"s", "a"⟩ ⟨.at 5, purged⟩ none ≠
        .ok st') ∧
      ¬ SurvivesPurge ⟨"s", "a"⟩ compactedDeferredRun purged := by
  obtain ⟨st, purged, store', result, hscan, hload, hmemory, hpurge, hload', hnever⟩ :=
    compactedDeferredRun_purge
  refine ⟨st, purged, store', result, hscan, hload, hmemory, hpurge, hload', hnever, ?_⟩
  intro hsurvives
  obtain ⟨st', hst', -⟩ := hsurvives ⟨1000, 1000, 10000, 20⟩ [] st
    (by rw [List.append_nil]; exact hscan)
  rw [List.append_nil, List.append_nil] at hst'
  exact hnever st' hst'

end OpenGameAgent
