import OpenGameAgent.Storage.SqliteTranscriptStore

/-!
# Reading an earlier revision

`DurableTranscript.materializeRevision` scans the whole log and takes a snapshot on the
way.  What it reports depends on the records up to the revision only.

* `cutAfter` — the log cut after a revision; `Available` — the revisions a log can report.
* `materializeRevision_of_available` — a revision is reported as the scan of the cut log
  ends.
* `ReportedOn` — the report stays the same whatever is appended later.  It does on the
  log itself, and on what a purge leaves exactly when no run needs what it purged
  (`reportedOn_iff_keepsRuns`).
-/

namespace OpenGameAgent

/-! ## The operation -/

/-- `DurableTranscript.materializeRevision` on what the store loads, without the media of
the messages. -/
def materializeRevision (limits : TranscriptLimits) (stream : StreamKey)
    (loaded : TranscriptStoredStream) (revision : TranscriptRevision) :
    Except TranscriptError TranscriptScanTarget := do
  snapshotRevision limits revision
  let st ← scanCommittedTranscript limits stream loaded (some revision)
  match st.target with
  | none => .error (.type "The durable transcript revision is unavailable.")
  | some target => return target

/-- A log cut after a revision. -/
def cutAfter (records : List DurableTranscriptRecord) : TranscriptRevision →
    List DurableTranscriptRecord
  | .empty => []
  | .at sequence => records.filter fun record => record.sequence ≤ sequence

/-- The revisions of a log that can be reported: not the source of a purged log, which is
kept for its checkpoint only. -/
def Available (records : List DurableTranscriptRecord) : TranscriptRevision → Prop
  | .empty => ∀ first ∈ records.head?, first.sequence ≤ 1
  | .at sequence => ∃ record ∈ records, record.sequence = sequence ∧
      ∀ first ∈ records.head?, first.sequence ≤ 1 ∨ first.sequence < sequence

/-! ## A scan with and without a target -/

/-- A state of a scan without its target. -/
def ScanState.bare (st : ScanState) : ScanState :=
  { st with target := none }

section Target

variable {limits : TranscriptLimits} {stream : StreamKey}
  (targetRevision : Option TranscriptRevision)

theorem admits_bare {st : ScanState} {record : DurableTranscriptRecord} :
    Admits limits stream st.bare record ↔ Admits limits stream st record :=
  ⟨fun h => ⟨h.snapshot, h.fresh, h.coordinate, h.sequence, h.bytes⟩,
    fun h => ⟨h.snapshot, h.fresh, h.coordinate, h.sequence, h.bytes⟩⟩

theorem tracks_bare {st : ScanState} {record : DurableTranscriptRecord} :
    Tracks st.bare record ↔ Tracks st record :=
  ⟨fun h => ⟨h.run_open, h.deferred⟩, fun h => ⟨h.run_open, h.deferred⟩⟩

/-- A target is no concern of the other fields. -/
theorem stepRecord_bare {st : ScanState} {record : DurableTranscriptRecord} {b : ScanState} :
    stepRecord limits stream none st.bare record = .ok b ↔
      ∃ st', stepRecord limits stream targetRevision st record = .ok st' ∧ st'.bare = b := by
  simp only [stepRecord_eq_ok_iff, admits_bare, tracks_bare]
  constructor
  · rintro ⟨hadmits, htracks, openTurn, messages, hfold, rfl⟩
    exact ⟨_, ⟨hadmits, htracks, openTurn, messages, hfold, rfl⟩, rfl⟩
  · rintro ⟨_, ⟨hadmits, htracks, openTurn, messages, hfold, rfl⟩, rfl⟩
    exact ⟨hadmits, htracks, openTurn, messages, hfold, rfl⟩

theorem runM_bare {st : ScanState} {records : List DurableTranscriptRecord} {b : ScanState} :
    runM (stepRecord limits stream none) st.bare records = .ok b ↔
      ∃ st', runM (stepRecord limits stream targetRevision) st records = .ok st' ∧
        st'.bare = b := by
  induction records generalizing st with
  | nil => simp [eq_comm]
  | cons record rest ih =>
    simp only [runM_cons_eq_ok]
    constructor
    · rintro ⟨mid, hmid, hrest⟩
      obtain ⟨mid', hmid', rfl⟩ := (stepRecord_bare targetRevision).1 hmid
      obtain ⟨st', hst', rfl⟩ := ih.1 hrest
      exact ⟨st', ⟨mid', hmid', hst'⟩, rfl⟩
    · rintro ⟨st', ⟨mid, hmid, hrest⟩, rfl⟩
      exact ⟨mid.bare, (stepRecord_bare _).2 ⟨mid, hmid, rfl⟩, ih.2 ⟨st', hrest, rfl⟩⟩

theorem start_bare (sequence : Nat) :
    (ScanState.start targetRevision sequence).bare = ScanState.start none sequence := by
  simp [ScanState.start, ScanState.startAt, ScanState.initial, ScanState.bare]

theorem retained_bare (source : DurableTranscriptRecord) :
    (ScanState.retained targetRevision source).bare = ScanState.retained none source := by
  simp [ScanState.retained, ScanState.admitted, ScanState.start, ScanState.startAt,
    ScanState.initial, ScanState.bare]

theorem retainedSource_bare {source : DurableTranscriptRecord}
    {rest : List DurableTranscriptRecord} :
    RetainedSource limits stream none source rest ↔
      RetainedSource limits stream targetRevision source rest := by
  constructor
  · intro h
    refine ⟨h.purged, h.closed, admits_bare.1 ?_, h.checkpoint⟩
    rw [start_bare]
    exact h.admits
  · intro h
    refine ⟨h.purged, h.closed, ?_, h.checkpoint⟩
    rw [← start_bare targetRevision]
    exact admits_bare.2 h.admits

/-- A log is accepted with a target when it is accepted without one. -/
theorem scanLog_bare {records : List DurableTranscriptRecord} {b : ScanState} :
    scanLog limits stream none records = .ok b ↔
      ∃ st, scanLog limits stream targetRevision records = .ok st ∧ st.bare = b := by
  cases records with
  | nil =>
    constructor
    · rintro ⟨⟩
      exact ⟨_, rfl, rfl⟩
    · rintro ⟨_, ⟨⟩, rfl⟩
      rfl
  | cons record rest =>
    simp only [scanLog_cons]
    constructor
    · rintro (⟨hle, hrun⟩ | ⟨hsource, hrun⟩)
      · rw [← start_bare targetRevision, runM_bare targetRevision] at hrun
        obtain ⟨st, hst, rfl⟩ := hrun
        exact ⟨st, Or.inl ⟨hle, hst⟩, rfl⟩
      · rw [← retained_bare targetRevision, runM_bare targetRevision] at hrun
        obtain ⟨st, hst, rfl⟩ := hrun
        exact ⟨st, Or.inr ⟨(retainedSource_bare targetRevision).1 hsource, hst⟩, rfl⟩
    · rintro ⟨st, ⟨hle, hrun⟩ | ⟨hsource, hrun⟩, rfl⟩
      · refine Or.inl ⟨hle, ?_⟩
        rw [← start_bare targetRevision, runM_bare targetRevision]
        exact ⟨st, hrun, rfl⟩
      · refine Or.inr ⟨(retainedSource_bare targetRevision).2 hsource, ?_⟩
        rw [← retained_bare targetRevision, runM_bare targetRevision]
        exact ⟨st, hrun, rfl⟩

end Target

/-! ## Sequences -/

section Sequences

variable {limits : TranscriptLimits} {stream : StreamKey}
  {targetRevision : Option TranscriptRevision}

/-- The records of a run of steps are numbered on. -/
theorem runM_sequences {st st' : ScanState} {records : List DurableTranscriptRecord}
    (h : runM (stepRecord limits stream targetRevision) st records = .ok st') :
    records.map RecordOf.sequence = List.range' st.expected records.length := by
  induction records generalizing st with
  | nil => rfl
  | cons record rest ih =>
    obtain ⟨mid, hmid, hrest⟩ := runM_cons_eq_ok.1 h
    obtain ⟨hadmits, -, openTurn, messages, -, rfl⟩ := stepRecord_eq_ok_iff.1 hmid
    rw [List.map_cons, ih hrest, List.length_cons, List.range'_succ, hadmits.sequence]
    rfl

/-- The records of an accepted log are numbered without a gap. -/
theorem scanLog_sequences {records : List DurableTranscriptRecord} {st : ScanState}
    (h : scanLog limits stream targetRevision records = .ok st) :
    ∃ first, records.map RecordOf.sequence = List.range' first records.length := by
  cases records with
  | nil => exact ⟨1, rfl⟩
  | cons record rest =>
    refine ⟨record.sequence, ?_⟩
    rcases scanLog_cons.1 h with ⟨-, hrun⟩ | ⟨-, hrun⟩
    · exact runM_sequences hrun
    · rw [List.map_cons, runM_sequences hrun, List.length_cons, List.range'_succ]
      rfl

theorem scanLog_sorted {records : List DurableTranscriptRecord} {st : ScanState}
    (h : scanLog limits stream targetRevision records = .ok st) :
    records.Pairwise fun a b => a.sequence < b.sequence := by
  obtain ⟨first, hfirst⟩ := scanLog_sequences h
  have hsorted : (List.range' first records.length).Pairwise (· < ·) := List.pairwise_lt_range' 1
  rw [← hfirst, List.pairwise_map] at hsorted
  exact hsorted

/-- A sorted log is cut behind the record at the revision. -/
theorem cutAfter_append_cons {front back : List DurableTranscriptRecord}
    {record : DurableTranscriptRecord}
    (h : (front ++ record :: back).Pairwise fun a b => a.sequence < b.sequence) :
    cutAfter (front ++ record :: back) (.at record.sequence) = front ++ [record] := by
  obtain ⟨-, hback, hfront⟩ := List.pairwise_append.1 h
  have hbefore : front.filter (fun r => decide (r.sequence ≤ record.sequence)) = front := by
    rw [List.filter_eq_self]
    intro r hr
    exact decide_eq_true (hfront r hr record (List.mem_cons_self ..)).le
  have hbehind : back.filter (fun r => decide (r.sequence ≤ record.sequence)) = [] := by
    rw [List.filter_eq_nil_iff]
    intro r hr hle
    have hlt := (List.pairwise_cons.1 hback).1 r hr
    exact absurd (of_decide_eq_true hle) (not_le.2 hlt)
  rw [cutAfter, List.filter_append, List.filter_cons_of_pos (by simp), hbefore, hbehind]

end Sequences

/-! ## The snapshot on the way -/

section Snapshot

variable {limits : TranscriptLimits} {stream : StreamKey}
  {targetRevision : Option TranscriptRevision}

/-- An accepted log is accepted up to each of its records that is not a retained source,
and from there on. -/
theorem scanLog_split {front back : List DurableTranscriptRecord} {record : DurableTranscriptRecord}
    {st : ScanState} (hfirst : front = [] → record.sequence ≤ 1)
    (h : scanLog limits stream targetRevision (front ++ record :: back) = .ok st) :
    ∃ s m, stepRecord limits stream targetRevision s record = .ok m ∧
      scanLog limits stream targetRevision (front ++ [record]) = .ok m ∧
      runM (stepRecord limits stream targetRevision) m back = .ok st := by
  cases front with
  | nil =>
    rcases scanLog_cons.1 h with ⟨hle, hrun⟩ | ⟨hsource, -⟩
    · obtain ⟨m, hm, hback⟩ := runM_cons_eq_ok.1 hrun
      exact ⟨_, m, hm, scanLog_cons.2 (Or.inl ⟨hle, runM_cons_eq_ok.2 ⟨m, hm, rfl⟩⟩), hback⟩
    · exact absurd hsource.purged (not_lt.2 (hfirst rfl))
  | cons first front =>
    rw [List.cons_append] at h
    rcases scanLog_cons.1 h with ⟨hle, hrun⟩ | ⟨hsource, hrun⟩
    · rw [← List.cons_append] at hrun
      obtain ⟨s, hs, hrest⟩ := runM_append_eq_ok.1 hrun
      obtain ⟨m, hm, hback⟩ := runM_cons_eq_ok.1 hrest
      refine ⟨s, m, hm, ?_, hback⟩
      rw [List.cons_append]
      refine scanLog_cons.2 (Or.inl ⟨hle, ?_⟩)
      rw [← List.cons_append]
      exact runM_append_eq_ok.2 ⟨s, hs, runM_cons_eq_ok.2 ⟨m, hm, rfl⟩⟩
    · obtain ⟨s, hs, hrest⟩ := runM_append_eq_ok.1 hrun
      obtain ⟨m, hm, hback⟩ := runM_cons_eq_ok.1 hrest
      refine ⟨s, m, hm, ?_, hback⟩
      rw [List.cons_append]
      refine scanLog_cons.2 (Or.inr ⟨?_, ?_⟩)
      case refine_2 => exact runM_append_eq_ok.2 ⟨s, hs, runM_cons_eq_ok.2 ⟨m, hm, rfl⟩⟩
      refine ⟨hsource.purged, hsource.closed, hsource.admits, ?_⟩
      -- the checkpoint is the record itself or comes before it
      obtain ⟨c, tail, heq, hcheckpoint⟩ := hsource.checkpoint
      cases front with
      | nil =>
        rw [List.nil_append, List.cons.injEq] at heq
        exact ⟨record, [], rfl, heq.1 ▸ hcheckpoint⟩
      | cons second front =>
        rw [List.cons_append, List.cons.injEq] at heq
        exact ⟨second, front ++ [record], rfl, heq.1 ▸ hcheckpoint⟩

/-- What the snapshot of a state holds. -/
def ScanState.snapshot (st : ScanState) (revision : TranscriptRevision) : TranscriptScanTarget :=
  ⟨revision, st.checkpointRevision, st.durableMessages⟩

theorem stepRecord_target {st st' : ScanState} {record : DurableTranscriptRecord}
    (h : stepRecord limits stream targetRevision st record = .ok st') :
    st'.target = if targetRevision = some (.at record.sequence) then
      some (st'.snapshot (.at record.sequence)) else st.target := by
  obtain ⟨-, -, openTurn, messages, -, rfl⟩ := stepRecord_eq_ok_iff.1 h
  rfl

/-- Records with other sequences leave the snapshot alone. -/
theorem runM_target {st st' : ScanState} {records : List DurableTranscriptRecord}
    (hother : ∀ record ∈ records, targetRevision ≠ some (.at record.sequence))
    (h : runM (stepRecord limits stream targetRevision) st records = .ok st') :
    st'.target = st.target := by
  induction records generalizing st with
  | nil =>
    cases h
    rfl
  | cons record rest ih =>
    obtain ⟨mid, hmid, hrest⟩ := runM_cons_eq_ok.1 h
    rw [ih (fun r hr => hother r (List.mem_cons_of_mem _ hr)) hrest, stepRecord_target hmid,
      if_neg (hother record (List.mem_cons_self ..))]

/-- The scan with a target ends with the snapshot of the scan of the cut log. -/
theorem scanLog_target {front back : List DurableTranscriptRecord} {record : DurableTranscriptRecord}
    {st : ScanState} (hfirst : front = [] → record.sequence ≤ 1)
    (h : scanLog limits stream (some (.at record.sequence)) (front ++ record :: back) = .ok st) :
    ∃ cut, scanLog limits stream none (front ++ [record]) = .ok cut ∧
      st.target = some (cut.snapshot (.at record.sequence)) := by
  have hsorted := (List.pairwise_append.1 (scanLog_sorted h)).2.1
  obtain ⟨s, m, hm, hcut, hback⟩ := scanLog_split hfirst h
  refine ⟨m.bare, (scanLog_bare (some (.at record.sequence))).2 ⟨m, hcut, rfl⟩, ?_⟩
  rw [runM_target ?_ hback, stepRecord_target hm, if_pos rfl]
  · rfl
  · intro r hr hsame
    have hlt := (List.pairwise_cons.1 hsorted).1 r hr
    rw [Option.some.injEq, TranscriptRevision.at.injEq] at hsame
    omega

end Snapshot

/-! ## What is reported -/

section Report

variable {limits : TranscriptLimits} {stream : StreamKey} {records : List DurableTranscriptRecord}
  {revision : TranscriptRevision} {target : TranscriptScanTarget}

theorem materializeRevision_ok_iff {loaded : TranscriptStoredStream} :
    materializeRevision limits stream loaded revision = .ok target ↔
      snapshotRevision limits revision = .ok () ∧ ∃ st,
        scanCommittedTranscript limits stream loaded (some revision) = .ok st ∧
          st.target = some target := by
  unfold materializeRevision
  rw [bind_eq_ok]
  constructor
  · rintro ⟨⟨⟩, hrevision, h⟩
    obtain ⟨st, hst, h⟩ := bind_eq_ok.1 h
    refine ⟨hrevision, st, hst, ?_⟩
    cases htarget : st.target with
    | none =>
      rw [htarget] at h
      cases h
    | some found =>
      rw [htarget] at h
      rw [return_eq_ok.1 h]
  · rintro ⟨hrevision, st, hst, htarget⟩
    refine ⟨(), hrevision, bind_eq_ok.2 ⟨st, hst, ?_⟩⟩
    rw [htarget]
    rfl

/-- The records around an available revision. -/
theorem Available.split {sequence : Nat} (h : Available records (.at sequence)) :
    ∃ front record back, records = front ++ record :: back ∧ record.sequence = sequence ∧
      (front = [] → record.sequence ≤ 1) := by
  obtain ⟨record, hmem, rfl, hfirst⟩ := h
  obtain ⟨front, back, rfl⟩ := List.append_of_mem hmem
  refine ⟨front, record, back, rfl, rfl, ?_⟩
  rintro rfl
  rcases hfirst record rfl with hle | hlt
  · exact hle
  · exact absurd hlt (lt_irrefl _)

theorem headRevision_concat (front : List DurableTranscriptRecord)
    (record : DurableTranscriptRecord) :
    headRevision (front ++ [record]) = .at record.sequence := by
  rw [headRevision, List.getLast?_concat]

/-- An available revision of an accepted log is reported as the scan of the log cut after
it ends. -/
theorem materializeRevision_of_available {st : ScanState}
    (hscan : scanCommittedTranscript limits stream ⟨headRevision records, records⟩ none = .ok st)
    (havailable : Available records revision) :
    ∃ cut, scanCommittedTranscript limits stream ⟨revision, cutAfter records revision⟩ none =
        .ok cut ∧
      materializeRevision limits stream ⟨headRevision records, records⟩ revision =
        .ok (cut.snapshot revision) := by
  obtain ⟨hhead, hlog, -, -⟩ := scanCommittedTranscript_eq_ok_iff.1 hscan
  obtain ⟨st', hst', -⟩ := (scanLog_bare (some revision)).1 hlog
  have hactual := scanLog_actualRevision hst'
  cases revision with
  | empty =>
    refine ⟨ScanState.initial none, rfl, materializeRevision_ok_iff.2 ⟨rfl, st', ?_⟩⟩
    have htarget : st'.target = some ((ScanState.initial none).snapshot .empty) := by
      cases records with
      | nil =>
        cases hst'
        rfl
      | cons first rest =>
        have hle : first.sequence ≤ 1 := havailable first rfl
        rcases scanLog_cons.1 hst' with ⟨-, hrun⟩ | ⟨hsource, -⟩
        · rw [runM_target (by simp) hrun, ScanState.start, ScanState.startAt]
          simp [ScanState.initial, ScanState.snapshot, not_lt.2 hle]
        · exact absurd hsource.purged (not_lt.2 hle)
    refine ⟨scanCommittedTranscript_eq_ok_iff.2 ⟨hhead, hst', hactual.symm, ?_⟩, htarget⟩
    rw [htarget]
    simp
  | «at» sequence =>
    obtain ⟨front, record, back, rfl, rfl, hfirst⟩ := havailable.split
    rw [cutAfter_append_cons (scanLog_sorted hlog)]
    obtain ⟨cut, hcut, htarget⟩ := scanLog_target hfirst hst'
    have hrevision := scanLog_snapshotRevision hcut
    have hcutHead := scanLog_actualRevision hcut
    rw [headRevision_concat] at hcutHead
    rw [hcutHead] at hrevision
    refine ⟨cut, scanCommittedTranscript_eq_ok_iff.2 ⟨hrevision, hcut, hcutHead.symm, by simp⟩,
      materializeRevision_ok_iff.2 ⟨hrevision, st', ?_, htarget⟩⟩
    refine scanCommittedTranscript_eq_ok_iff.2 ⟨hhead, hst', hactual.symm, ?_⟩
    rw [htarget]
    simp

/-- Only available revisions are reported. -/
theorem available_of_materializeRevision
    (h : materializeRevision limits stream ⟨headRevision records, records⟩ revision = .ok target) :
    Available records revision := by
  obtain ⟨-, st, hst, htarget⟩ := materializeRevision_ok_iff.1 h
  obtain ⟨-, hlog, -, -⟩ := scanCommittedTranscript_eq_ok_iff.1 hst
  have hsorted := scanLog_sorted hlog
  dsimp only at hlog hsorted
  cases records with
  | nil =>
    cases revision with
    | empty => exact nofun
    | «at» sequence =>
      cases hlog
      cases htarget
  | cons first rest =>
    cases revision with
    | empty =>
      rintro _ ⟨⟩
      by_contra hpurged
      rcases scanLog_cons.1 hlog with ⟨hle, -⟩ | ⟨hsource, hrun⟩
      · exact hpurged hle
      · have hnone := runM_target (by simp) hrun
        rw [htarget, ScanState.retained, ScanState.start, ScanState.startAt] at hnone
        simp [ScanState.admitted, hsource.purged] at hnone
    | «at» sequence =>
      -- a snapshot was taken at a record with this sequence
      have hfound : ∀ {s : ScanState} {l : List DurableTranscriptRecord}, s.target = none →
          runM (stepRecord limits stream (some (.at sequence))) s l = .ok st →
            ∃ record ∈ l, record.sequence = sequence := by
        intro s l hnone hrun
        by_contra hne
        have hsame := runM_target (fun record hrecord heq => hne ⟨record, hrecord, by
          rw [Option.some.injEq, TranscriptRevision.at.injEq] at heq
          exact heq.symm⟩) hrun
        rw [htarget, hnone] at hsame
        cases hsame
      rcases scanLog_cons.1 hlog with ⟨hle, hrun⟩ | ⟨hsource, hrun⟩
      · obtain ⟨record, hrecord, hsequence⟩ := hfound (by simp [ScanState.start,
          ScanState.startAt, ScanState.initial]) hrun
        refine ⟨record, hrecord, hsequence, ?_⟩
        rintro _ ⟨⟩
        exact Or.inl hle
      · obtain ⟨record, hrecord, hsequence⟩ := hfound (by simp [ScanState.retained,
          ScanState.admitted, ScanState.start, ScanState.startAt, ScanState.initial]) hrun
        refine ⟨record, List.mem_cons_of_mem _ hrecord, hsequence, ?_⟩
        rintro _ ⟨⟩
        exact Or.inr (hsequence ▸ (List.pairwise_cons.1 hsorted).1 record hrecord)

end Report

/-! ## Later records and purges -/

/-- Records that a log is continued by. -/
def Continues (records more : List DurableTranscriptRecord) : Prop :=
  ∀ first ∈ more.head?, first.sequence = (headRevision records).nextSequence

section Later

variable {limits : TranscriptLimits} {stream : StreamKey}
  {records more : List DurableTranscriptRecord} {revision : TranscriptRevision}

theorem Available.append (h : Available records revision)
    (hmore : records = [] → Continues records more) : Available (records ++ more) revision := by
  cases records with
  | nil =>
    cases revision with
    | empty =>
      intro first hfirst
      rw [hmore rfl first hfirst]
      exact le_rfl
    | «at» sequence =>
      obtain ⟨_, hrecord, -⟩ := h
      cases hrecord
  | cons first rest =>
    cases revision with
    | empty => exact h
    | «at» sequence =>
      obtain ⟨record, hrecord, hsequence, hfirst⟩ := h
      exact ⟨record, List.mem_append.2 (Or.inl hrecord), hsequence, hfirst⟩

/-- What comes behind an available revision is cut off. -/
theorem cutAfter_append {st : ScanState} (h : Available records revision)
    (hscan : scanLog limits stream none (records ++ more) = .ok st) :
    cutAfter (records ++ more) revision = cutAfter records revision := by
  cases revision with
  | empty => rfl
  | «at» sequence =>
    have hsorted := scanLog_sorted hscan
    obtain ⟨front, record, back, rfl, rfl, -⟩ := h.split
    have hsorted' := (List.pairwise_append.1 hsorted).1
    rw [cutAfter_append_cons hsorted']
    rw [List.append_assoc, List.cons_append] at hsorted ⊢
    exact cutAfter_append_cons hsorted

/-- Two states with the same history. -/
structure SameHistory (s t : ScanState) : Prop where
  openTurn : t.openTurn = s.openTurn
  checkpointRevision : t.checkpointRevision = s.checkpointRevision
  previousRecord : t.previousRecord = s.previousRecord
  durableMessages : t.durableMessages = s.durableMessages

theorem SameHistory.refl (s : ScanState) : SameHistory s s := ⟨rfl, rfl, rfl, rfl⟩

section TwoScans

variable {limits' : TranscriptLimits}

theorem SameHistory.step {s s' t t' : ScanState} {record : DurableTranscriptRecord}
    (h : SameHistory s t) (hs : stepRecord limits stream none s record = .ok s')
    (ht : stepRecord limits' stream none t record = .ok t') : SameHistory s' t' := by
  obtain ⟨-, -, openTurn, messages, hfold, rfl⟩ := stepRecord_eq_ok_iff.1 hs
  obtain ⟨-, -, openTurn', messages', hfold', rfl⟩ := stepRecord_eq_ok_iff.1 ht
  rw [h.openTurn, h.durableMessages, h.previousRecord, hfold, Except.ok.injEq,
    Prod.mk.injEq] at hfold'
  obtain ⟨rfl, rfl⟩ := hfold'
  refine ⟨rfl, ?_, rfl, rfl⟩
  rw [advance_checkpointRevision, advance_checkpointRevision]
  simp only [ScanState.admitted, h.checkpointRevision]

theorem SameHistory.run {s s' t t' : ScanState} {l : List DurableTranscriptRecord}
    (h : SameHistory s t) (hs : runM (stepRecord limits stream none) s l = .ok s')
    (ht : runM (stepRecord limits' stream none) t l = .ok t') : SameHistory s' t' := by
  induction l generalizing s t with
  | nil =>
    cases hs
    cases ht
    exact h
  | cons record rest ih =>
    obtain ⟨m, hm, hrest⟩ := runM_cons_eq_ok.1 hs
    obtain ⟨m', hm', hrest'⟩ := runM_cons_eq_ok.1 ht
    exact ih (h.step hm hm') hrest hrest'

/-- The limits decide whether a log is accepted, not what its history is. -/
theorem sameHistory_of_scanLog {s t : ScanState} (hs : scanLog limits stream none records = .ok s)
    (ht : scanLog limits' stream none records = .ok t) : SameHistory s t := by
  cases records with
  | nil =>
    cases hs
    cases ht
    exact .refl _
  | cons record rest =>
    rcases scanLog_cons.1 hs with ⟨hle, hs⟩ | ⟨hsource, hs⟩ <;>
      rcases scanLog_cons.1 ht with ⟨hle', ht⟩ | ⟨hsource', ht⟩
    · exact (SameHistory.refl _).run hs ht
    · exact absurd hsource'.purged (not_lt.2 hle)
    · exact absurd hsource.purged (not_lt.2 hle')
    · exact (SameHistory.refl _).run hs ht

/-- Behind a checkpoint the history is that of the checkpoint, whatever came before. -/
theorem sameHistory_of_checkpoint {s s' t t' : ScanState} {checkpoint : DurableTranscriptRecord}
    {data : ContextCheckpoint} {l : List DurableTranscriptRecord}
    (hdata : checkpoint.data = .contextCheckpoint data)
    (hs : runM (stepRecord limits stream none) s (checkpoint :: l) = .ok s')
    (ht : runM (stepRecord limits' stream none) t (checkpoint :: l) = .ok t') :
    SameHistory s' t' := by
  obtain ⟨m, hm, hrest⟩ := runM_cons_eq_ok.1 hs
  obtain ⟨m', hm', hrest'⟩ := runM_cons_eq_ok.1 ht
  refine SameHistory.run ?_ hrest hrest'
  obtain ⟨-, -, openTurn, messages, hfold, rfl⟩ := stepRecord_eq_ok_iff.1 hm
  obtain ⟨-, -, openTurn', messages', hfold', rfl⟩ := stepRecord_eq_ok_iff.1 hm'
  obtain ⟨-, -, rfl, rfl⟩ := (foldRecord_checkpoint hdata).1 hfold
  obtain ⟨-, -, rfl, rfl⟩ := (foldRecord_checkpoint hdata).1 hfold'
  refine ⟨rfl, ?_, rfl, rfl⟩
  rw [advance_checkpointRevision, advance_checkpointRevision, hdata]
  rfl

/-- The scan of a log steps over what comes behind its first records. -/
theorem scanLog_behind {front l : List DurableTranscriptRecord} {st : ScanState} (hne : front ≠ [])
    (h : scanLog limits stream none (front ++ l) = .ok st) :
    ∃ s, runM (stepRecord limits stream none) s l = .ok st := by
  cases front with
  | nil => exact absurd rfl hne
  | cons first front =>
    rw [List.cons_append] at h
    rcases scanLog_cons.1 h with ⟨-, hrun⟩ | ⟨-, hrun⟩
    · rw [← List.cons_append] at hrun
      obtain ⟨s, -, hl⟩ := runM_append_eq_ok.1 hrun
      exact ⟨s, hl⟩
    · obtain ⟨s, -, hl⟩ := runM_append_eq_ok.1 hrun
      exact ⟨s, hl⟩

/-- Logs that agree from a checkpoint on have one history. -/
theorem sameHistory_behind {front front' l : List DurableTranscriptRecord}
    {checkpoint : DurableTranscriptRecord} {data : ContextCheckpoint} {s t : ScanState}
    (hdata : checkpoint.data = .contextCheckpoint data) (hne : front ≠ []) (hne' : front' ≠ [])
    (hs : scanLog limits stream none (front ++ checkpoint :: l) = .ok s)
    (ht : scanLog limits' stream none (front' ++ checkpoint :: l) = .ok t) : SameHistory s t := by
  obtain ⟨_, hs⟩ := scanLog_behind hne hs
  obtain ⟨_, ht⟩ := scanLog_behind hne' ht
  exact sameHistory_of_checkpoint hdata hs ht

theorem SameHistory.snapshot_eq {s t : ScanState} (h : SameHistory s t)
    (revision : TranscriptRevision) : t.snapshot revision = s.snapshot revision := by
  rw [ScanState.snapshot, h.checkpointRevision, h.durableMessages, ScanState.snapshot]

end TwoScans

end Later

/-! ## Reports over the life of a log -/

/-- Whatever is appended later, the revision is reported from what is left of the log. -/
def ReportedOn (stream : StreamKey) (records left : List DurableTranscriptRecord)
    (revision : TranscriptRevision) (target : TranscriptScanTarget) : Prop :=
  ∀ limits more st, Continues records more →
    scanCommittedTranscript limits stream ⟨headRevision (records ++ more), records ++ more⟩ none =
      .ok st →
    materializeRevision limits stream ⟨headRevision (records ++ more), left ++ more⟩ revision =
      .ok target

section Life

variable {limits : TranscriptLimits} {stream : StreamKey}
  {records more : List DurableTranscriptRecord} {revision : TranscriptRevision}
  {target : TranscriptScanTarget}

/-- What an accepted log goes on with continues it. -/
theorem continues_of_scanLog {st : ScanState} (hne : records ≠ [])
    (h : scanLog limits stream none (records ++ more) = .ok st) : Continues records more := by
  obtain ⟨start, hstart⟩ := scanLog_sequences h
  obtain rfl | ⟨front, last, rfl⟩ := List.eq_nil_or_concat' records
  · exact absurd rfl hne
  cases more with
  | nil => exact nofun
  | cons next rest =>
    rintro _ ⟨⟩
    rw [headRevision_concat, TranscriptRevision.nextSequence]
    have hlast := congrArg (·[front.length]?) hstart
    have hnext := congrArg (·[front.length + 1]?) hstart
    simp at hlast hnext
    omega

/-- A report is that of the scan of the cut log. -/
theorem report_eq_cut {st : ScanState}
    (hscan : scanCommittedTranscript limits stream ⟨headRevision records, records⟩ none = .ok st)
    (hreport : materializeRevision limits stream ⟨headRevision records, records⟩ revision =
      .ok target) :
    ∃ cut, scanCommittedTranscript limits stream ⟨revision, cutAfter records revision⟩ none =
        .ok cut ∧ target = cut.snapshot revision := by
  obtain ⟨cut, hcut, hsame⟩ :=
    materializeRevision_of_available hscan (available_of_materializeRevision hreport)
  rw [hreport, Except.ok.injEq] at hsame
  exact ⟨cut, hcut, hsame⟩

/-- The records cut off behind a checkpoint that the revision does not reach. -/
theorem cutAfter_behind {before rest : List DurableTranscriptRecord}
    {source checkpoint : DurableTranscriptRecord} {st : ScanState}
    (hscan : scanLog limits stream none (before ++ source :: checkpoint :: rest) = .ok st)
    (havailable : Available (source :: checkpoint :: rest) revision)
    (hpurged : 1 < source.sequence) :
    ∃ front, cutAfter (before ++ source :: checkpoint :: rest) revision =
        front ++ source :: checkpoint :: cutAfter rest revision ∧
      cutAfter (source :: checkpoint :: rest) revision =
        source :: checkpoint :: cutAfter rest revision := by
  have hsorted := (List.pairwise_append.1 (scanLog_sorted hscan)).2.1
  obtain ⟨hsource, hrest⟩ := List.pairwise_cons.1 hsorted
  have hcheckpoint := (List.pairwise_cons.1 hrest).1
  cases revision with
  | empty =>
    have hle := havailable source rfl
    omega
  | «at» sequence =>
    obtain ⟨record, hmem, rfl, hfirst⟩ := havailable
    have hbehind : source.sequence < record.sequence := by
      rcases hfirst source rfl with hle | hlt
      · omega
      · exact hlt
    have hreached : checkpoint.sequence ≤ record.sequence := by
      rcases List.mem_cons.1 hmem with rfl | hmem
      · omega
      · rcases List.mem_cons.1 hmem with rfl | hmem
        · exact le_rfl
        · exact (hcheckpoint record hmem).le
    have hkept : cutAfter (source :: checkpoint :: rest) (.at record.sequence) =
        source :: checkpoint :: cutAfter rest (.at record.sequence) := by
      rw [cutAfter, List.filter_cons_of_pos (by simpa using hbehind.le),
        List.filter_cons_of_pos (by simpa using hreached), cutAfter]
    refine ⟨cutAfter before (.at record.sequence), ?_, hkept⟩
    rw [← hkept, cutAfter, List.filter_append, cutAfter, cutAfter]

/-- Appends change no report. -/
theorem reportedOn_append {st : ScanState}
    (hscan : scanCommittedTranscript limits stream ⟨headRevision records, records⟩ none = .ok st)
    (hreport : materializeRevision limits stream ⟨headRevision records, records⟩ revision =
      .ok target) : ReportedOn stream records records revision target := by
  intro limits' more st' hmore hscan'
  have havailable := available_of_materializeRevision hreport
  obtain ⟨cut, hcut, rfl⟩ := report_eq_cut hscan hreport
  obtain ⟨cut', hcut', hreport'⟩ :=
    materializeRevision_of_available hscan' (havailable.append fun _ => hmore)
  have hlog' := (scanCommittedTranscript_eq_ok_iff.1 hscan').2.1
  rw [cutAfter_append havailable hlog'] at hcut'
  have hsame := sameHistory_of_scanLog (scanCommittedTranscript_eq_ok_iff.1 hcut).2.1
    (scanCommittedTranscript_eq_ok_iff.1 hcut').2.1
  rw [hreport', hsame.snapshot_eq]

section Purged

variable {before rest : List DurableTranscriptRecord} {source checkpoint : DurableTranscriptRecord}
  {data : ContextCheckpoint}

/-- A log that survives a purge reports as before what the purge keeps. -/
theorem reportedOn_of_survives {st : ScanState}
    (hsource : source.data = .turnClosed .completed)
    (hdata : checkpoint.data = .contextCheckpoint data)
    (hscan : scanCommittedTranscript limits stream
      ⟨headRevision (before ++ source :: checkpoint :: rest),
        before ++ source :: checkpoint :: rest⟩ none = .ok st)
    (hreport : materializeRevision limits stream
      ⟨headRevision (before ++ source :: checkpoint :: rest),
        before ++ source :: checkpoint :: rest⟩ revision = .ok target)
    (hkeeps : Available (source :: checkpoint :: rest) revision)
    (hsurvives : SurvivesPurge stream (before ++ source :: checkpoint :: rest)
      (source :: checkpoint :: rest)) :
    ReportedOn stream (before ++ source :: checkpoint :: rest) (source :: checkpoint :: rest)
      revision target := by
  intro limits' more st' hmore hscan'
  obtain ⟨t, ht, -⟩ := hsurvives limits' more st' hscan'
  have hhead : headRevision ((before ++ source :: checkpoint :: rest) ++ more) =
      headRevision (source :: checkpoint :: rest ++ more) := by
    rw [List.append_assoc, List.cons_append, headRevision_append_cons]
  rw [hhead] at ht ⊢
  have hlog := (scanCommittedTranscript_eq_ok_iff.1 ht).2.1
  have hpurged : 1 < source.sequence := (retained_of_purged hsource hlog).1
  obtain ⟨cut, hcut, rfl⟩ := report_eq_cut hscan hreport
  obtain ⟨cut', hcut', hreport'⟩ := materializeRevision_of_available ht (hkeeps.append nofun)
  obtain ⟨front, hfront, hkept⟩ :=
    cutAfter_behind (scanCommittedTranscript_eq_ok_iff.1 hscan).2.1 hkeeps hpurged
  rw [cutAfter_append hkeeps hlog, hkept] at hcut'
  rw [hfront] at hcut
  have hcutLog := (scanCommittedTranscript_eq_ok_iff.1 hcut).2.1
  have hcutLog' := (scanCommittedTranscript_eq_ok_iff.1 hcut').2.1
  rw [← List.singleton_append, ← List.append_assoc] at hcutLog
  have hsame := sameHistory_behind hdata (by simp) (List.cons_ne_nil source []) hcutLog hcutLog'
  rw [hreport', hsame.snapshot_eq]

/-- A log that reports a revision from what is left survives the purge. -/
theorem survives_of_reportedOn
    (hdata : checkpoint.data = .contextCheckpoint data)
    (hreported : ReportedOn stream (before ++ source :: checkpoint :: rest)
      (source :: checkpoint :: rest) revision target) :
    SurvivesPurge stream (before ++ source :: checkpoint :: rest)
      (source :: checkpoint :: rest) := by
  intro limits' more st' hscan'
  have hlog' := (scanCommittedTranscript_eq_ok_iff.1 hscan').2.1
  dsimp only at hlog'
  have hmore := continues_of_scanLog (by simp) hlog'
  obtain ⟨-, t, ht, -⟩ := materializeRevision_ok_iff.1 (hreported limits' more st' hmore hscan')
  obtain ⟨hhead, hlog, hactual, -⟩ := scanCommittedTranscript_eq_ok_iff.1 ht
  have hbare := (scanLog_bare (some revision)).2 ⟨t, hlog, rfl⟩
  refine ⟨t.bare, scanCommittedTranscript_eq_ok_iff.2 ⟨hhead, hbare, hactual, by simp⟩, ?_⟩
  rw [List.append_assoc, List.cons_append, List.cons_append, ← List.singleton_append,
    ← List.append_assoc] at hlog'
  have hsame := sameHistory_behind hdata (by simp) (List.cons_ne_nil source []) hlog' hbare
  exact ⟨hsame.checkpointRevision, hsame.durableMessages⟩

end Purged

section Request

variable {request : TranscriptCheckpointPurgeRequest} {purged : List DurableTranscriptRecord}
  {result : TranscriptCheckpointPurgeResult}

/-- A purge keeps the revisions its request names. -/
theorem available_of_retained {st : ScanState}
    (hscan : scanCommittedTranscript limits stream ⟨headRevision records, records⟩ none = .ok st)
    (hpurge : purgeBeforeCheckpoint records request = .ok (purged, result))
    (havailable : Available records revision) (hretained : revision ∈ request.retainRevisions) :
    Available purged revision := by
  obtain ⟨before, source, checkpoint, data, rest, hcheckpoint, rfl⟩ :=
    purgeBeforeCheckpoint_eq_ok hpurge
  split
  · exact havailable
  · rename_i hblocked
    rw [TranscriptCheckpointPurgeRequest.isBlocked, Bool.or_eq_true, not_or,
      List.any_eq_true] at hblocked
    have hbehind : revision.protects source.sequence ≠ true :=
      fun hprotects => hblocked.2 ⟨revision, hretained, hprotects⟩
    cases revision with
    | empty => exact absurd rfl hbehind
    | «at» sequence =>
      have hlt : source.sequence < sequence := by
        simpa [TranscriptRevision.protects] using hbehind
      have hsorted := scanLog_sorted (scanCommittedTranscript_eq_ok_iff.1 hscan).2.1
      dsimp only at hsorted
      rw [hcheckpoint.records_eq] at hsorted havailable
      obtain ⟨record, hmem, rfl, -⟩ := havailable
      refine ⟨record, ?_, rfl, ?_⟩
      · rcases List.mem_append.1 hmem with hmem | hmem
        · have hbefore := (List.pairwise_append.1 hsorted).2.2 record hmem source
            (List.mem_cons_self ..)
          omega
        · exact hmem
      · rintro _ ⟨⟩
        exact Or.inr hlt

/-- A purge leaves the reports it keeps alone exactly when no run needs what it purges. -/
theorem reportedOn_iff_keepsRuns {st : ScanState}
    (hlimits : limits.maxRecordBytes ≤ maxSafeInteger)
    (hscan : scanCommittedTranscript limits stream ⟨headRevision records, records⟩ none = .ok st)
    (hreport : materializeRevision limits stream ⟨headRevision records, records⟩ revision =
      .ok target)
    (hpurge : purgeBeforeCheckpoint records request = .ok (purged, result))
    (hkeeps : Available purged revision) :
    ReportedOn stream records purged revision target ↔ PurgeKeepsRuns records request := by
  rw [← survives_iff_keepsRuns hlimits hscan hpurge]
  obtain ⟨before, source, checkpoint, data, rest, hcheckpoint, rfl⟩ :=
    purgeBeforeCheckpoint_eq_ok hpurge
  cases hblocked : request.isBlocked before.length source.sequence with
  | true =>
    rw [if_pos rfl]
    exact ⟨fun _ => survives_refl records, fun _ => reportedOn_append hscan hreport⟩
  | false =>
    rw [hblocked, if_neg Bool.false_ne_true] at hkeeps
    rw [if_neg Bool.false_ne_true]
    rw [hcheckpoint.records_eq] at hscan hreport ⊢
    exact ⟨survives_of_reportedOn hcheckpoint.data_eq,
      reportedOn_of_survives (boundary_source hcheckpoint.boundary) hcheckpoint.data_eq hscan
        hreport hkeeps⟩

end Request

end Life

/-- An earlier revision of an accepted log is reported as the scan of the log cut after it
ends, and later appends do not change the report.  A purge in either store that keeps the
revision leaves the report alone exactly when no run still needs what it purges. -/
theorem history_stable_iff (limits : TranscriptLimits) (stream : StreamKey)
    (records : List DurableTranscriptRecord) (request : TranscriptCheckpointPurgeRequest)
    (revision : TranscriptRevision) (st : ScanState)
    (hlimits : limits.maxRecordBytes ≤ maxSafeInteger)
    (hscan : scanCommittedTranscript limits stream ⟨headRevision records, records⟩ none = .ok st)
    (havailable : Available records revision) :
    ∃ cut, scanCommittedTranscript limits stream ⟨revision, cutAfter records revision⟩ none =
        .ok cut ∧
      materializeRevision limits stream ⟨headRevision records, records⟩ revision =
        .ok (cut.snapshot revision) ∧
      ReportedOn stream records records revision (cut.snapshot revision) ∧
      (∀ purged result, purgeBeforeCheckpoint records request = .ok (purged, result) →
        (revision ∈ request.retainRevisions → Available purged revision) ∧
        (Available purged revision →
          (ReportedOn stream records purged revision (cut.snapshot revision) ↔
            PurgeKeepsRuns records request))) ∧
      ∀ (store store' : SqliteTranscript) maxBytes head result,
        store.load stream maxBytes = .ok ⟨head, records⟩ →
        store.purgeBeforeCheckpoint stream request = .ok (store', result) →
        ∃ purged, store'.load stream maxBytes = .ok ⟨head, purged⟩ ∧
          (revision ∈ request.retainRevisions → Available purged revision) ∧
          (Available purged revision →
            (ReportedOn stream records purged revision (cut.snapshot revision) ↔
              PurgeKeepsRuns records request)) := by
  obtain ⟨cut, hcut, hreport⟩ := materializeRevision_of_available hscan havailable
  refine ⟨cut, hcut, hreport, reportedOn_append hscan hreport, ?_, ?_⟩
  · intro purged result hpurge
    exact ⟨available_of_retained hscan hpurge havailable,
      reportedOn_iff_keepsRuns hlimits hscan hreport hpurge⟩
  · intro store store' maxBytes head result hload hpurge
    obtain ⟨-, purged, hmemory, hload'⟩ := sqlitePurge_refines hload hpurge
    exact ⟨purged, hload', available_of_retained hscan hmemory havailable,
      reportedOn_iff_keepsRuns hlimits hscan hreport hmemory⟩

/-- The checkpoint's own revision in the log. -/
theorem compactedDeferredRun_available : Available compactedDeferredRun (.at 4) :=
  ⟨_, List.getElem_mem (show 3 < compactedDeferredRun.length by decide), rfl,
    fun _ h => Or.inl (by cases h; decide)⟩

theorem history_stable_iff_compacted :
    ∃ cut purged store' result,
      scanCommittedTranscript ⟨1000, 1000, 10000, 20⟩ ⟨"s", "a"⟩
        ⟨.at 4, cutAfter compactedDeferredRun (.at 4)⟩ none = .ok cut ∧
      compactedDeferredStream.purgeBeforeCheckpoint ⟨"s", "a"⟩ purgeAtCheckpoint =
        .ok (store', result) ∧
      store'.load ⟨"s", "a"⟩ 10000 = .ok ⟨.at 5, purged⟩ ∧
      (Available purged (.at 4) →
        (ReportedOn ⟨"s", "a"⟩ compactedDeferredRun purged (.at 4) (cut.snapshot (.at 4)) ↔
          PurgeKeepsRuns compactedDeferredRun purgeAtCheckpoint)) := by
  obtain ⟨st, -, store', result, hscan, hload, -, hpurge, -⟩ := compactedDeferredRun_purge
  obtain ⟨cut, hcut, -, -, -, hsqlite⟩ := history_stable_iff ⟨1000, 1000, 10000, 20⟩ ⟨"s", "a"⟩
    compactedDeferredRun purgeAtCheckpoint (.at 4) st (by decide) hscan
    compactedDeferredRun_available
  obtain ⟨purged, hload', -, hiff⟩ := hsqlite compactedDeferredStream store' 10000 (.at 5) result
    hload hpurge
  exact ⟨cut, purged, store', result, hcut, hpurge, hload', hiff⟩

/-- The purge keeps the checkpoint's own revision; it can be read before the purge, and
never behind it. -/
theorem purge_hides_kept_revision :
    ∃ st target purged store' result,
      scanCommittedTranscript ⟨1000, 1000, 10000, 20⟩ ⟨"s", "a"⟩ ⟨.at 5, compactedDeferredRun⟩
        none = .ok st ∧
      materializeRevision ⟨1000, 1000, 10000, 20⟩ ⟨"s", "a"⟩ ⟨.at 5, compactedDeferredRun⟩
        (.at 4) = .ok target ∧
      purgeBeforeCheckpoint compactedDeferredRun purgeAtCheckpoint = .ok (purged, result) ∧
      compactedDeferredStream.purgeBeforeCheckpoint ⟨"s", "a"⟩ purgeAtCheckpoint =
        .ok (store', result) ∧
      store'.load ⟨"s", "a"⟩ 10000 = .ok ⟨.at 5, purged⟩ ∧
      Available purged (.at 4) ∧
      ∀ target', materializeRevision ⟨1000, 1000, 10000, 20⟩ ⟨"s", "a"⟩ ⟨.at 5, purged⟩ (.at 4) ≠
        .ok target' := by
  obtain ⟨st, purged, store', result, hscan, hload, hmemory, hpurge, hload', hnever⟩ :=
    compactedDeferredRun_purge
  obtain ⟨cut, -, hreport⟩ := materializeRevision_of_available hscan compactedDeferredRun_available
  refine ⟨st, _, purged, store', result, hscan, hreport, hmemory, hpurge, hload', ?_, ?_⟩
  · have hdropped : (purgeBeforeCheckpoint compactedDeferredRun purgeAtCheckpoint).map Prod.fst =
        .ok (compactedDeferredRun.drop 2) := rfl
    rw [hmemory, Except.map, Except.ok.injEq] at hdropped
    rw [show purged = compactedDeferredRun.drop 2 from hdropped]
    exact ⟨_, List.getElem_mem (show 1 < (compactedDeferredRun.drop 2).length by decide), rfl,
      fun _ h => Or.inr (by cases h; decide)⟩
  · intro target' hreport'
    obtain ⟨-, t, ht, -⟩ := materializeRevision_ok_iff.1 hreport'
    obtain ⟨hhead, hlog, hactual, -⟩ := scanCommittedTranscript_eq_ok_iff.1 ht
    exact hnever t.bare (scanCommittedTranscript_eq_ok_iff.2
      ⟨hhead, (scanLog_bare (some (.at 4))).2 ⟨t, hlog, rfl⟩, hactual, by simp⟩)

end OpenGameAgent
