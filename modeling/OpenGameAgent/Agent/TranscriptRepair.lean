import OpenGameAgent.Agent.TranscriptRestore

/-!
# A restore repairs once and for all

The repair a restore plans is a function of the scan, and every repair record
moves the scan to one whose repair is what was left of the plan: `RepairsLeft` is
the invariant, `RepairsLeft.step` its step, and `restore_repairs_once` its run.

The order of the run terminals is the one thing the plan does not keep: the run of
the open turn comes first in the plan of the crashed log, but stands in the order
of its first operation once its turn is closed.  The invariant therefore says
that the drafts left are the next plan up to a permutation.
-/

namespace OpenGameAgent

variable {α : Type}

/-! ## Lists of calls and of runs -/

/-- The first element of a filtered list, in its place in the list. -/
theorem findIdx_of_filter {β : Type} {p : β → Bool} {l : List β} {b : β} {rest : List β}
    (h : l.filter p = b :: rest) :
    ∃ i, l.findIdx? p = some i ∧ l[i]? = some b ∧
      ∀ b', p b' = false → (l.set i b').filter p = rest := by
  induction l with
  | nil => simp at h
  | cons a l ih =>
    by_cases ha : p a = true
    · rw [List.filter_cons_of_pos ha, List.cons.injEq] at h
      obtain ⟨rfl, rfl⟩ := h
      refine ⟨0, by simp [List.findIdx?_cons, ha], rfl, ?_⟩
      intro b' hb'
      simp [hb']
    · rw [List.filter_cons_of_neg ha] at h
      obtain ⟨i, hfind, hget, hset⟩ := ih h
      refine ⟨i + 1, by simp [List.findIdx?_cons, ha, hfind], by simpa using hget, ?_⟩
      intro b' hb'
      rw [List.set_cons_succ, List.filter_cons_of_neg ha]
      exact hset b' hb'

/-- Distinct names: a call is found under its own. -/
theorem findIdx_key {calls : List OpenToolCall} {index : Nat} {tool : OpenToolCall}
    (hnodup : (calls.map OpenToolCall.key).Nodup) (h : calls[index]? = some tool) :
    calls.findIdx? (OpenToolCall.isAt tool.assistantRecordId tool.sourceIndex) = some index := by
  induction calls generalizing index with
  | nil => simp at h
  | cons a calls ih =>
    rw [List.map_cons, List.nodup_cons] at hnodup
    cases index with
    | zero =>
      simp only [List.getElem?_cons_zero, Option.some.injEq] at h
      subst h
      simp [List.findIdx?_cons, OpenToolCall.isAt]
    | succ index =>
      rw [List.getElem?_cons_succ] at h
      have hne : OpenToolCall.isAt tool.assistantRecordId tool.sourceIndex a = false := by
        rw [Bool.eq_false_iff]
        intro hat
        simp only [OpenToolCall.isAt, Bool.and_eq_true, decide_eq_true_eq] at hat
        apply hnodup.1
        have hkey : a.key = tool.key := by
          simp only [OpenToolCall.key, hat.1, hat.2]
        rw [hkey]
        exact List.mem_map_of_mem (List.mem_of_getElem? h)
      rw [List.findIdx?_cons, hne, ih hnodup.2 h]
      rfl

/-- Two readings of a map that differ at one key alone, where one drops the entry. -/
theorem filterMap_drop_key {κ β γ : Type} {l : List (κ × β)} {k : κ} {b : β} {c : γ}
    {f g : κ × β → Option γ} (hnodup : (l.map Prod.fst).Nodup) (hmem : (k, b) ∈ l)
    (hf : f (k, b) = none) (hg : g (k, b) = some c) (heq : ∀ e ∈ l, e.1 ≠ k → f e = g e) :
    (l.filterMap g).Perm (c :: l.filterMap f) := by
  obtain ⟨before, after, rfl⟩ := List.append_of_mem hmem
  rw [List.map_append, List.map_cons, List.nodup_append, List.nodup_cons] at hnodup
  obtain ⟨-, ⟨hafter, -⟩, hbefore⟩ := hnodup
  have h1 : before.filterMap f = before.filterMap g := by
    refine List.filterMap_congr fun e he => heq e (by simp [he]) ?_
    exact hbefore e.1 (List.mem_map_of_mem he) k (by simp)
  have h2 : after.filterMap f = after.filterMap g := by
    refine List.filterMap_congr fun e he => heq e (by simp [he]) ?_
    intro hc
    exact hafter (List.mem_map.2 ⟨e, he, hc⟩)
  rw [List.filterMap_append, List.filterMap_append, List.filterMap_cons_some hg,
    List.filterMap_cons_none hf, h1, h2]
  exact List.perm_middle

/-! ## The plan -/

/-- The plan of a log whose turn is closed. -/
def terminalRepairs (st : ScanState) : List TranscriptRecordDraft :=
  st.latestDeferredOrigins.entries.filterMap (runRepair st [])

theorem repairDrafts_closed (host : TranscriptHost α) {st : ScanState} (h : st.openTurn = none) :
    repairDrafts host st = terminalRepairs st := by
  simp [repairDrafts, openTurnRepair, h, terminalRepairs]

/-- What follows the repair of the open turn itself. -/
def runRepairs (st : ScanState) (turn : OpenTurn) : List TranscriptRecordDraft :=
  match st.latestDeferredOrigins.get? turn.coordinate.runId with
  | some origin =>
    terminalRepair st turn.coordinate origin ::
      st.latestDeferredOrigins.entries.filterMap (runRepair st [turn.coordinate.runId])
  | none => st.latestDeferredOrigins.entries.filterMap (runRepair st [])

theorem repairDrafts_open (host : TranscriptHost α) {st : ScanState} (hcoherent : st.Coherent)
    {turn : OpenTurn} (h : st.openTurn = some turn) (hpending : turn.pending = none) :
    repairDrafts host st = prepareRepair host turn ++ runRepairs st turn := by
  have hopen : st.closedDeferredRuns.contains turn.coordinate.runId = false := by
    simpa using hcoherent.open_run turn h
  unfold repairDrafts openTurnRepair runRepairs
  rw [h]
  simp only [hpending, Option.isSome_none, Bool.false_eq_true, if_false]
  cases st.latestDeferredOrigins.get? turn.coordinate.runId with
  | none => rfl
  | some origin =>
    simp only [hopen, Bool.false_eq_true, if_false, List.append_assoc, List.singleton_append]

/-- The drafts a restore still has to append are the plan of the log it has written. -/
structure RepairsLeft (host : TranscriptHost α) (st : ScanState)
    (drafts : List TranscriptRecordDraft) : Prop where
  coherent : st.Coherent
  settled : st.pendingDeferred = none
  plan : drafts.Perm (repairDrafts host st)
  ordered : st.openTurn.isSome = true → drafts = repairDrafts host st

theorem pending_of_settled {st : ScanState} (h : st.pendingDeferred = none) {turn : OpenTurn}
    (hturn : st.openTurn = some turn) : turn.pending = none := by
  rw [ScanState.pendingDeferred, hturn] at h
  exact h

/-! ## One repair record -/

section Step

variable {limits : TranscriptLimits} {stream : StreamKey} {st : ScanState}
  {record : DurableTranscriptRecord}

/-- The state behind a repair record differs in the fields the record is about. -/
structure RepairFrame (st st' : ScanState) : Prop where
  latest : st'.latestDeferredOrigins = st.latestDeferredOrigins
  settlements : st'.deferredSettlements = st.deferredSettlements

theorem terminalRepair_frame {st st' : ScanState} (h : RepairFrame st st')
    (coordinate : RunCoordinate) (origin : RecordOf DeferredOpened) :
    terminalRepair st' coordinate origin = terminalRepair st coordinate origin := by
  simp only [terminalRepair, h.settlements]

theorem runRepair_eq {st st' : ScanState} (h : RepairFrame st st')
    (hpending : st.pendingDeferred = none) (hpending' : st'.pendingDeferred = none)
    {repaired repaired' : List String} {entry : String × RecordOf DeferredOpened}
    (hclosed : st'.closedDeferredRuns.contains entry.1 = st.closedDeferredRuns.contains entry.1)
    (hrepaired : repaired'.contains entry.1 = repaired.contains entry.1)
    (hlast : st'.lastClosedTurns.get? entry.1 = st.lastClosedTurns.get? entry.1) :
    runRepair st' repaired' entry = runRepair st repaired entry := by
  unfold runRepair
  rw [hclosed, hrepaired, hlast, hpending, hpending']
  simp only [terminalRepair_frame h]

theorem runRepairs_eq {st st' : ScanState} (h : RepairFrame st st')
    (hpending : st.pendingDeferred = none) (hpending' : st'.pendingDeferred = none)
    (hclosed : st'.closedDeferredRuns = st.closedDeferredRuns)
    (hlast : st'.lastClosedTurns = st.lastClosedTurns) {turn turn' : OpenTurn}
    (hcoordinate : turn'.coordinate = turn.coordinate) :
    runRepairs st' turn' = runRepairs st turn := by
  have hruns : ∀ repaired, st.latestDeferredOrigins.entries.filterMap (runRepair st' repaired) =
      st.latestDeferredOrigins.entries.filterMap (runRepair st repaired) := by
    intro repaired
    refine List.filterMap_congr fun entry _ => ?_
    exact runRepair_eq h hpending hpending' (by rw [hclosed]) rfl (by rw [hlast])
  simp only [runRepairs, h.latest, hcoordinate, hruns, terminalRepair_frame h]

/-- A record that opens and settles nothing keeps the maps a plan reads. -/
theorem repairFrame_advance {record : DurableTranscriptRecord} {openTurn : Option OpenTurn}
    {messages : List DurableTranscriptMessage} (hopened : record.openedOperation = none)
    (hsettlement : record.data.settlement = none) :
    RepairFrame st ((st.admitted record).advance none record openTurn messages) := by
  constructor
  · rw [advance_latestDeferredOrigins, hopened, admit_latestDeferredOrigins]
  · rw [advance_deferredSettlements, hsettlement, admit_deferredSettlements]

/-- A Tool result of the plan is accepted and leaves the rest of the plan. -/
theorem repairsLeft_toolStep (host : TranscriptHost α) {turn : OpenTurn} {tool : OpenToolCall}
    {calls : List OpenToolCall} (hcoherent : st.Coherent) (hsettled : st.pendingDeferred = none)
    (hturn : st.openTurn = some turn)
    (hcalls : turn.toolCalls.filter (fun tool => !tool.completed) = tool :: calls)
    (hcoordinate : record.coordinate = turn.coordinate)
    (hdata : record.data = (toolRepair host turn.coordinate tool).data)
    (hadmits : Admits limits stream st record) :
    ∃ st', stepRecord limits stream none st record = .ok st' ∧
      RepairsLeft host st' (calls.map (toolRepair host turn.coordinate) ++
        ⟨turn.coordinate, .turnClosed .interrupted⟩ :: runRepairs st turn) := by
  obtain ⟨index, hfirst, hget, hset⟩ := findIdx_of_filter hcalls
  obtain ⟨turn', hturn'⟩ : ∃ turn', turn' = { turn with
      toolCalls := turn.toolCalls.set index { tool with completed := true } } := ⟨_, rfl⟩
  have hnames : NamesCall turn tool.assistantRecordId tool.sourceIndex tool.call.id tool.call.name
      index tool :=
    ⟨findIdx_key (hcoherent.calls_distinct turn hturn) hget, hget, rfl, rfl⟩
  have houtcome : (recoverTool host tool).outcome ≠ .notStarted → tool.start.isSome = true := by
    intro hne
    cases hstart : tool.start with
    | some start => rfl
    | none => exact absurd (by simp [recoverTool, hstart, syntheticNotStarted]) hne
  have hfold : foldTurnRecord turn record = .ok turn' := by
    rw [foldTurnRecord, hdata]
    exact foldToolCompleted_eq_ok_iff.2 ⟨index, tool, hfirst, hnames, houtcome, rfl, hturn'⟩
  have hin : record.data.inTurn = true := by rw [hdata]; rfl
  have htracks : Tracks st record := by
    refine ⟨?_, ?_⟩
    · rw [hcoordinate]
      exact hcoherent.open_run turn hturn
    · rw [DeferredInOrder, hdata]
      trivial
  have hrecord : foldRecord record st.openTurn st.durableMessages st.previousRecord =
      .ok (some turn', st.durableMessages ++ record.data.appendedMessage.toList) := by
    refine (foldRecord_inTurn hin).2 ⟨?_, turn', ?_, rfl, rfl⟩ <;> rw [hturn]
    · exact hcoordinate.symm
    · exact hfold
  obtain ⟨st', hst'⟩ : ∃ st', st' = (st.admitted record).advance none record (some turn')
      (st.durableMessages ++ record.data.appendedMessage.toList) := ⟨_, rfl⟩
  have hstep : stepRecord limits stream none st record = .ok st' := by
    rw [hst']
    exact stepRecord_of hadmits htracks hrecord
  have hframe : RepairFrame st st' := by
    rw [hst']
    apply repairFrame_advance
    · rw [DurableTranscriptRecord.openedOperation, hdata]; rfl
    · rw [hdata]; rfl
  have hpending : turn'.pending = none := by
    have hbefore : turn.pending = none := pending_of_settled hsettled hturn
    rw [hturn']
    exact hbefore
  have hsettled' : st'.pendingDeferred = none := by
    rw [hst']
    exact hpending
  obtain ⟨hclosed, hlast⟩ : st'.closedDeferredRuns = st.closedDeferredRuns ∧
      st'.lastClosedTurns = st.lastClosedTurns := by
    rw [hst']
    exact inTurn_keeps hin
  have hplan := repairDrafts_open host (hcoherent.step hstep) (by rw [hst']; rfl) hpending
  have hruns := runRepairs_eq hframe hsettled hsettled' hclosed hlast
    (show turn'.coordinate = turn.coordinate by rw [hturn'])
  have hcompleted : turn'.toolCalls.filter (fun tool => !tool.completed) = calls := by
    rw [hturn']
    exact hset _ (by simp)
  have hleft : calls.map (toolRepair host turn.coordinate) ++
      ⟨turn.coordinate, .turnClosed .interrupted⟩ :: runRepairs st turn =
        repairDrafts host st' := by
    rw [hplan, hruns, prepareRepair, hcompleted, hturn']
    simp
  exact ⟨st', hstep, hcoherent.step hstep, hsettled', hleft ▸ List.Perm.refl _, fun _ => hleft⟩

/-- The closure of the plan is accepted and leaves the terminals of the runs. -/
theorem repairsLeft_closeStep (host : TranscriptHost α) {turn : OpenTurn}
    (hcoherent : st.Coherent) (hsettled : st.pendingDeferred = none)
    (hturn : st.openTurn = some turn)
    (hcalls : turn.toolCalls.filter (fun tool => !tool.completed) = [])
    (hcoordinate : record.coordinate = turn.coordinate)
    (hdata : record.data = .turnClosed .interrupted)
    (hadmits : Admits limits stream st record) :
    ∃ st', stepRecord limits stream none st record = .ok st' ∧
      RepairsLeft host st' (runRepairs st turn) := by
  have hclosed : foldTurnClosed st.openTurn record.coordinate .interrupted = .ok () := by
    refine foldTurnClosed_eq_ok_iff.2 ⟨turn, hturn, hcoordinate.symm,
      pending_of_settled hsettled hturn, ?_, nofun⟩
    simpa using hcalls
  have htracks : Tracks st record := by
    refine ⟨?_, ?_⟩
    · rw [hcoordinate]
      exact hcoherent.open_run turn hturn
    · rw [DeferredInOrder, hdata]
      trivial
  obtain ⟨st', hst'⟩ : ∃ st', st' = (st.admitted record).advance none record none
      st.durableMessages := ⟨_, rfl⟩
  have hstep : stepRecord limits stream none st record = .ok st' := by
    rw [hst']
    exact stepRecord_of hadmits htracks ((foldRecord_turnClosed hdata).2 ⟨hclosed, rfl, rfl⟩)
  have hframe : RepairFrame st st' := by
    rw [hst']
    apply repairFrame_advance
    · rw [DurableTranscriptRecord.openedOperation, hdata]
    · rw [hdata]; rfl
  have hopen' : st'.openTurn = none := by rw [hst']; rfl
  have hsettled' : st'.pendingDeferred = none := by rw [ScanState.pendingDeferred, hopen']; rfl
  have hruns' : st'.closedDeferredRuns = st.closedDeferredRuns := by
    rw [hst', advance_closedDeferredRuns, hdata]
    rfl
  have hlast : st'.lastClosedTurns = st.lastClosedTurns.set turn.coordinate.runId
      ⟨turn.coordinate, .interrupted, turn.assistantStopReason⟩ := by
    rw [hst', advance_lastClosedTurns, hdata, admit_openTurn, hturn, hcoordinate]
    rfl
  have hother : ∀ (repaired : List String) (entry : String × RecordOf DeferredOpened),
      entry.1 ≠ turn.coordinate.runId → repaired.contains entry.1 = false →
      runRepair st repaired entry = runRepair st' [] entry := by
    intro repaired entry hne hrepaired
    refine (runRepair_eq hframe hsettled hsettled' (by rw [hruns']) ?_ ?_).symm
    · rw [hrepaired]; rfl
    · rw [hlast, OrderedMap.get?_set_of_ne _ (Ne.symm hne)]
  have hplan : (runRepairs st turn).Perm (repairDrafts host st') := by
    rw [repairDrafts_closed host hopen', terminalRepairs, hframe.latest, runRepairs]
    cases horigin : st.latestDeferredOrigins.get? turn.coordinate.runId with
    | none =>
      have hsame : st.latestDeferredOrigins.entries.filterMap (runRepair st []) =
          st.latestDeferredOrigins.entries.filterMap (runRepair st' []) := by
        refine List.filterMap_congr fun entry hentry => hother [] entry ?_ rfl
        intro heq
        rw [OrderedMap.get?_eq_none_iff] at horigin
        exact horigin (heq ▸ List.mem_map_of_mem hentry)
      simp only [hsame, List.Perm.refl]
    | some origin =>
      have hmem := OrderedMap.get?_eq_some_iff.1 horigin
      refine (filterMap_drop_key st.latestDeferredOrigins.nodup hmem ?_ ?_ ?_).symm
      · simp [runRepair]
      · have hrun : st'.closedDeferredRuns.contains turn.coordinate.runId = false := by
          rw [hruns']
          simpa using hcoherent.open_run turn hturn
        simp only [runRepair, hrun, hsettled', hlast, OrderedMap.get?_set_self]
        simp [terminalRepair_frame hframe]
      · intro entry _ hne
        refine hother _ entry hne ?_
        simpa using hne
  refine ⟨st', hstep, hcoherent.step hstep, hsettled', hplan, ?_⟩
  rw [hopen']
  rintro ⟨⟩

/-- Behind a closed turn the terminal of a run matches its operation and its closure. -/
theorem runClosable_terminal (hcoherent : st.Coherent) (hopen : st.openTurn = none)
    {runId : String} {origin : RecordOf DeferredOpened} {closure : TranscriptClosedTurn}
    (hentry : st.latestDeferredOrigins.get? runId = some origin)
    (hclosure : st.lastClosedTurns.get? runId = some closure) :
    ∃ data, (terminalRepair st closure.coordinate origin).data = .deferredRunClosed data ∧
      RunClosable st closure.coordinate data := by
  have hrun := hcoherent.closure_run runId closure hclosure
  refine ⟨_, rfl, ?_⟩
  rcases hcoherent.origin_settled runId origin hentry with ⟨settlement, hset⟩ | ⟨turn, ht, -⟩
  · refine ⟨origin, settlement, closure, ?_, hset, rfl, rfl, ?_, ?_, rfl⟩
    · rw [hrun]
      exact hentry
    · rintro rfl
      simp [hset]
    · rw [hrun]
      exact hclosure
  · rw [hopen] at ht
    cases ht

/-- A run the plan closes has a settled operation and a closed turn that say so. -/
theorem runClosable_of_runRepair (hcoherent : st.Coherent) (hopen : st.openTurn = none)
    {runId : String} {origin : RecordOf DeferredOpened} {draft : TranscriptRecordDraft}
    (hentry : st.latestDeferredOrigins.get? runId = some origin)
    (hrepair : runRepair st [] (runId, origin) = some draft) :
    runId ∉ st.closedDeferredRuns ∧ draft.coordinate.runId = runId ∧
      ∃ data, draft.data = .deferredRunClosed data ∧ RunClosable st draft.coordinate data := by
  unfold runRepair at hrepair
  split at hrepair
  · cases hrepair
  · rename_i hskip
    split at hrepair
    · cases hrepair
    · rename_i closure hclosure
      split at hrepair
      · cases hrepair
      · cases hrepair
        have hnot : runId ∉ st.closedDeferredRuns := by
          intro hmem
          exact hskip (by simp [hmem])
        exact ⟨hnot, hcoherent.closure_run runId closure hclosure,
          runClosable_terminal hcoherent hopen hentry hclosure⟩

/-- A run terminal of the plan is accepted and leaves the other terminals. -/
theorem repairsLeft_runStep (host : TranscriptHost α) {draft : TranscriptRecordDraft}
    {drafts : List TranscriptRecordDraft} (h : RepairsLeft host st (draft :: drafts))
    (hopen : st.openTurn = none) (hcoordinate : record.coordinate = draft.coordinate)
    (hdata : record.data = draft.data) (hadmits : Admits limits stream st record) :
    ∃ st', stepRecord limits stream none st record = .ok st' ∧ RepairsLeft host st' drafts := by
  have hplan := h.plan
  rw [repairDrafts_closed host hopen, terminalRepairs] at hplan
  obtain ⟨⟨runId, origin⟩, hmem, hrepair⟩ :=
    List.mem_filterMap.1 (hplan.mem_iff.1 List.mem_cons_self)
  have hentry := OrderedMap.get?_eq_some_iff.2 hmem
  obtain ⟨hnot, hrun, data, hclosedData, hclosable⟩ :=
    runClosable_of_runRepair h.coherent hopen hentry hrepair
  rw [hclosedData] at hdata
  have htracks : Tracks st record := by
    refine ⟨?_, ?_⟩
    · rw [hcoordinate, hrun]
      exact hnot
    · rw [DeferredInOrder, hdata, hcoordinate]
      exact hclosable
  obtain ⟨st', hst'⟩ : ∃ st', st' = (st.admitted record).advance none record none
      st.durableMessages := ⟨_, rfl⟩
  have hstep : stepRecord limits stream none st record = .ok st' := by
    rw [hst']
    exact stepRecord_of hadmits htracks
      ((foldRecord_deferredRunClosed hdata).2 ⟨hopen, rfl, rfl⟩)
  have hframe : RepairFrame st st' := by
    rw [hst']
    apply repairFrame_advance
    · rw [DurableTranscriptRecord.openedOperation, hdata]
    · rw [hdata]; rfl
  have hopen' : st'.openTurn = none := by rw [hst']; rfl
  have hsettled' : st'.pendingDeferred = none := by rw [ScanState.pendingDeferred, hopen']; rfl
  have hclosed : st'.closedDeferredRuns = st.closedDeferredRuns ++ [runId] := by
    rw [hst', advance_closedDeferredRuns, hdata, hcoordinate, hrun]
    rfl
  have hlast : st'.lastClosedTurns = st.lastClosedTurns := by
    rw [hst', advance_lastClosedTurns, hdata]
    rfl
  have hdrop : (st.latestDeferredOrigins.entries.filterMap (runRepair st [])).Perm
      (draft :: st.latestDeferredOrigins.entries.filterMap (runRepair st' [])) := by
    refine filterMap_drop_key st.latestDeferredOrigins.nodup hmem ?_ hrepair ?_
    · simp [runRepair, hclosed]
    · intro entry _ hne
      refine runRepair_eq hframe h.settled hsettled' ?_ rfl (by rw [hlast])
      simp [hclosed, hne]
  refine ⟨st', hstep, h.coherent.step hstep, hsettled', ?_, ?_⟩
  · rw [repairDrafts_closed host hopen', terminalRepairs, hframe.latest]
    exact (hplan.trans hdrop).cons_inv
  · rw [hopen']
    rintro ⟨⟩

/-- One prepared repair record is accepted, and what is left of the plan is left. -/
theorem RepairsLeft.step {host : TranscriptHost α} {draft : TranscriptRecordDraft}
    {drafts : List TranscriptRecordDraft} (h : RepairsLeft host st (draft :: drafts))
    (hcoordinate : record.coordinate = draft.coordinate) (hdata : record.data = draft.data)
    (hadmits : Admits limits stream st record) :
    ∃ st', stepRecord limits stream none st record = .ok st' ∧ RepairsLeft host st' drafts := by
  cases hturn : st.openTurn with
  | none => exact repairsLeft_runStep host h hturn hcoordinate hdata hadmits
  | some turn =>
    have hpending := pending_of_settled h.settled hturn
    have hplan := h.ordered (by rw [hturn]; rfl)
    rw [repairDrafts_open host h.coherent hturn hpending, prepareRepair] at hplan
    cases hcalls : turn.toolCalls.filter (fun tool => !tool.completed) with
    | nil =>
      rw [hcalls, List.map_nil, List.nil_append, List.singleton_append, List.cons.injEq] at hplan
      obtain ⟨rfl, rfl⟩ := hplan
      exact repairsLeft_closeStep host h.coherent h.settled hturn hcalls hcoordinate hdata
        hadmits
    | cons tool calls =>
      rw [hcalls, List.map_cons, List.append_assoc, List.cons_append, List.cons.injEq] at hplan
      obtain ⟨rfl, rfl⟩ := hplan
      exact repairsLeft_toolStep host h.coherent h.settled hturn hcalls hcoordinate hdata hadmits

end Step

/-! ## What the repair adds to the restored history -/

/-- The three kinds of record a repair writes. -/
def RecordData.isRepair : RecordData → Bool
  | .toolCompleted _ | .turnClosed _ | .deferredRunClosed _ => true
  | _ => false

theorem repairDrafts_isRepair (host : TranscriptHost α) (st : ScanState) :
    ∀ draft ∈ repairDrafts host st, draft.data.isRepair = true := by
  have hturn : ∀ turn : OpenTurn, ∀ draft ∈ prepareRepair host turn, draft.data.isRepair = true := by
    intro turn draft h
    rcases List.mem_append.1 h with h | h
    · obtain ⟨tool, -, rfl⟩ := List.mem_map.1 h
      rfl
    · rw [List.mem_singleton] at h
      subst h
      rfl
  intro draft h
  rcases List.mem_append.1 h with h | h
  · unfold openTurnRepair at h
    split at h
    · cases h
    · rename_i turn _
      split at h
      · cases h
      · split at h
        · split at h
          · exact hturn turn draft h
          · rcases List.mem_append.1 h with h | h
            · exact hturn turn draft h
            · rw [List.mem_singleton] at h
              subst h
              rfl
        · exact hturn turn draft h
  · obtain ⟨entry, -, hrepair⟩ := List.mem_filterMap.1 h
    unfold runRepair at hrepair
    split at hrepair
    · cases hrepair
    · split at hrepair
      · cases hrepair
      · split at hrepair
        · cases hrepair
        · cases hrepair
          rfl

/-- The messages and terminals a restore adds by hand are those the scan would read. -/
theorem repair_run_output {limits : TranscriptLimits} {stream : StreamKey} {st st' : ScanState}
    {records : List DurableTranscriptRecord}
    (hrepair : ∀ record ∈ records, record.data.isRepair = true)
    (h : runM (stepRecord limits stream none) st records = .ok st') :
    st'.durableMessages = st.durableMessages ++ records.filterMap repairMessage ∧
      st'.terminalDeferredRuns = st.terminalDeferredRuns ++ records.filterMap repairTerminal ∧
      st'.checkpointRevision = st.checkpointRevision := by
  induction records generalizing st with
  | nil => cases h; simp
  | cons record rest ih =>
    obtain ⟨mid, hmid, hrest⟩ := runM_cons_eq_ok.1 h
    obtain ⟨h1, h2, h3⟩ := ih (fun r hr => hrepair r (List.mem_cons_of_mem _ hr)) hrest
    obtain ⟨-, -, openTurn, messages, hfold, rfl⟩ := stepRecord_eq_ok_iff.1 hmid
    have hkind := hrepair record List.mem_cons_self
    rw [advance_durableMessages] at h1
    rw [advance_terminalDeferredRuns] at h2
    rw [advance_checkpointRevision] at h3
    rw [h1, h2, h3]
    cases hdata : record.data with
    | toolCompleted data =>
      obtain ⟨-, turn, -, -, rfl⟩ := (foldRecord_inTurn (by rw [hdata]; rfl)).1 hfold
      simp [hdata, repairMessage, repairTerminal, RecordData.appendedMessage,
        RecordData.isCheckpoint, ScanState.admitted]
    | turnClosed status =>
      obtain ⟨-, -, rfl⟩ := (foldRecord_turnClosed hdata).1 hfold
      simp [hdata, repairMessage, repairTerminal, RecordData.isCheckpoint, ScanState.admitted]
    | deferredRunClosed data =>
      obtain ⟨-, -, rfl⟩ := (foldRecord_deferredRunClosed hdata).1 hfold
      simp [hdata, repairMessage, repairTerminal, RecordData.isCheckpoint, ScanState.admitted]
    | _ => simp [hdata, RecordData.isRepair] at hkind

/-! ## The run of a restore -/

section Run

variable {limits : TranscriptLimits} {stream : StreamKey} {host : TranscriptHost α}
  {loaded : TranscriptStoredStream} {st : ScanState} {prepared : List DurableTranscriptRecord}

theorem snapshotRevision_run {st' : ScanState} {records : List DurableTranscriptRecord}
    (h : snapshotRevision limits st.actualRevision = .ok ())
    (hrun : runM (stepRecord limits stream none) st records = .ok st') :
    snapshotRevision limits st'.actualRevision = .ok () := by
  refine runM_invariant (fun s => snapshotRevision limits s.actualRevision = .ok ()) ?_ h hrun
  intro s record s' _ hstep
  obtain ⟨hadmits, -, openTurn, messages, -, rfl⟩ := stepRecord_eq_ok_iff.1 hstep
  exact snapshotRevision_of_admits hadmits

/-- A log without records has nothing to repair. -/
theorem repairDrafts_of_nil (hscan : scanLog limits stream none [] = .ok st) :
    repairDrafts host st = [] := by
  cases hscan
  rfl

theorem repairRecords_run (hscan : scanLog limits stream none loaded.records = .ok st)
    (hrevision : loaded.revision = st.actualRevision) (hpending : st.pendingDeferred = none)
    (hprepared : repairRecords limits stream host loaded.revision st = .ok prepared) (k : Nat) :
    ∃ st', runM (stepRecord limits stream none) st (prepared.take k) = .ok st' ∧
      RepairsLeft host st' ((repairDrafts host st).drop k) := by
  have hleft : RepairsLeft host st (repairDrafts host st) :=
    ⟨coherent_scan hscan, hpending, List.Perm.refl _, fun _ => rfl⟩
  unfold repairRecords at hprepared
  split at hprepared
  · rename_i hempty
    cases hprepared
    rw [List.isEmpty_iff] at hempty
    rw [hempty] at hleft ⊢
    exact ⟨st, by simp, by simpa using hleft⟩
  · rename_i hsome
    have hexpected : st.expected = loaded.revision.nextSequence + 0 := by
      cases hrev : loaded.revision with
      | «at» sequence =>
        rw [hrev] at hrevision
        exact (coherent_scan hscan).head sequence hrevision.symm
      | empty =>
        cases hrecords : loaded.records with
        | nil =>
          rw [hrecords] at hscan
          rw [repairDrafts_of_nil hscan] at hsome
          exact absurd rfl hsome
        | cons record rest =>
          obtain ⟨last, hlast⟩ := List.getLast?_isSome.2 (List.cons_ne_nil record rest) |>
            Option.isSome_iff_exists.1
          have hhead := scanLog_actualRevision hscan
          rw [← hrevision, hrev, hrecords, headRevision, hlast] at hhead
          cases hhead
    exact prepareRecordsFrom_run (RepairsLeft host)
      (fun _ _ _ _ h hc hd ha => h.step hc hd ha) hprepared hexpected rfl (Nat.le_refl _) hleft k

theorem repairRecords_data
    (hprepared : repairRecords limits stream host loaded.revision st = .ok prepared) :
    prepared.map RecordOf.data = (repairDrafts host st).map TranscriptRecordDraft.data := by
  unfold repairRecords at hprepared
  split at hprepared
  · rename_i hempty
    cases hprepared
    rw [List.isEmpty_iff] at hempty
    rw [hempty]
    rfl
  · exact prepareRecordsFrom_data hprepared

theorem prepared_isRepair
    (hprepared : repairRecords limits stream host loaded.revision st = .ok prepared) :
    ∀ record ∈ prepared, record.data.isRepair = true := by
  intro record hmem
  have hdata : record.data ∈ (repairDrafts host st).map TranscriptRecordDraft.data := by
    rw [← repairRecords_data hprepared]
    exact List.mem_map_of_mem hmem
  obtain ⟨draft, hdraft, heq⟩ := List.mem_map.1 hdata
  rw [← heq]
  exact repairDrafts_isRepair host st draft hdraft

/-- Behind every prefix of the repair the stored log is accepted, and the rest of the
repair is what the log still needs. -/
theorem repair_prefix_accepted
    (hscan : scanCommittedTranscript limits stream loaded none = .ok st)
    (hpending : st.pendingDeferred = none)
    (hprepared : repairRecords limits stream host loaded.revision st = .ok prepared) (k : Nat) :
    ∃ st', runM (stepRecord limits stream none) st (prepared.take k) = .ok st' ∧
      RepairsLeft host st' ((repairDrafts host st).drop k) ∧
      appendEach limits loaded (prepared.take k) =
        .ok ⟨st'.actualRevision, loaded.records ++ prepared.take k⟩ ∧
      scanCommittedTranscript limits stream
        ⟨st'.actualRevision, loaded.records ++ prepared.take k⟩ none = .ok st' := by
  obtain ⟨hsnap, hlog, hrevision, -⟩ := scanCommittedTranscript_eq_ok_iff.1 hscan
  obtain ⟨st', hrun, hleft⟩ := repairRecords_run hlog hrevision hpending hprepared k
  obtain ⟨hids, hnodup⟩ := scanLog_recordIds hlog
  refine ⟨st', hrun, hleft, appendEach_of_run hrevision hids hnodup hrun, ?_⟩
  refine scanCommittedTranscript_eq_ok_iff.2 ⟨?_, ?_, rfl, by simp⟩
  · exact snapshotRevision_run (hrevision ▸ hsnap) hrun
  · cases hrecords : loaded.records with
    | nil =>
      rw [hrecords] at hlog
      have hnone : prepared = [] := by
        unfold repairRecords at hprepared
        rw [repairDrafts_of_nil hlog] at hprepared
        cases hprepared
        rfl
      subst hnone
      rw [List.take_nil] at hrun
      cases hrun
      simpa using hlog
    | cons record rest =>
      rw [← hrecords]
      exact (scanLog_append (by simp [hrecords]) hlog).2 hrun

/-- A log whose plan is empty has no open turn and no run left to close. -/
theorem RepairsLeft.done (h : RepairsLeft host st []) :
    st.openTurn = none ∧ terminalRepairs st = [] := by
  have hplan : repairDrafts host st = [] := h.plan.symm.eq_nil
  cases hturn : st.openTurn with
  | none => exact ⟨rfl, by rw [← repairDrafts_closed host hturn, hplan]⟩
  | some turn =>
    rw [repairDrafts_open host h.coherent hturn (pending_of_settled h.settled hturn),
      prepareRepair] at hplan
    simp at hplan

/-- With nothing left to repair, every deferred run is closed or ended in Tool use. -/
theorem runs_closed_of_done (hcoherent : st.Coherent) (hopen : st.openTurn = none)
    (hdone : terminalRepairs st = []) {runId : String} {origin : RecordOf DeferredOpened}
    (horigin : st.latestDeferredOrigins.get? runId = some origin) :
    runId ∈ st.closedDeferredRuns ∨
      ∃ closure, st.lastClosedTurns.get? runId = some closure ∧
        closure.status = .completed ∧ closure.assistantStopReason = some .toolUse := by
  have hnone : runRepair st [] (runId, origin) = none := by
    by_contra hsome
    obtain ⟨draft, hdraft⟩ := Option.ne_none_iff_exists'.1 hsome
    have hmem : draft ∈ terminalRepairs st :=
      List.mem_filterMap.2 ⟨_, OrderedMap.get?_eq_some_iff.1 horigin, hdraft⟩
    rw [hdone] at hmem
    cases hmem
  have hpending : st.pendingDeferred = none := by rw [ScanState.pendingDeferred, hopen]; rfl
  rcases hcoherent.origin_closure runId origin horigin with ⟨closure, hclosure⟩ | ⟨turn, hturn, -⟩
  · by_cases hmem : runId ∈ st.closedDeferredRuns
    · exact Or.inl hmem
    · right
      simp only [runRepair, hpending, hclosure] at hnone
      refine ⟨closure, hclosure, ?_⟩
      by_contra hc
      simp [hmem, hc] at hnone
  · rw [hopen] at hturn
    cases hturn

theorem restore_eq_ok_iff {restored : TranscriptRestore α} {stored : TranscriptStoredStream} :
    restore limits stream host loaded = .ok (restored, stored) ↔
      ∃ st prepared messages, scanCommittedTranscript limits stream loaded none = .ok st ∧
        repairRecords limits stream host loaded.revision st = .ok prepared ∧
        appendEach limits loaded prepared = .ok stored ∧
        snapshotDurableMessages (st.durableMessages ++ prepared.filterMap repairMessage) = .ok () ∧
        host.materialize stream (st.durableMessages ++ prepared.filterMap repairMessage) =
          .ok messages ∧
        restored = ⟨stream, stored.revision, st.checkpointRevision, messages,
          st.durableMessages ++ prepared.filterMap repairMessage,
          st.terminalDeferredRuns ++ prepared.filterMap repairTerminal, st.pendingDeferred,
          st.pendingDeferred.bind fun pending =>
            st.finalOutputs.get? pending.coordinate.runId⟩ := by
  unfold restore
  simp only [bind_eq_ok, pure, Except.pure, Except.ok.injEq, Prod.mk.injEq]
  constructor
  · rintro ⟨st, h1, prepared, h2, stored', h3, u, h4, messages, h5, rfl, rfl⟩
    exact ⟨st, prepared, messages, h1, h2, h3, h4, h5, rfl⟩
  · rintro ⟨st, prepared, messages, h1, h2, h3, h4, h5, rfl⟩
    exact ⟨st, h1, prepared, h2, stored, h3, (), h4, messages, h5, rfl, rfl⟩

end Run

/-- A restore repairs once and for all.  For a log without a pending operation whose
repair fits: whatever number of repair records a crash let through, the log is
accepted and still has no pending operation; and a restore that completes leaves a log
without an open turn in which every deferred run is closed or ended in Tool use, over
which any further restore appends nothing and returns the same revision, messages and
terminal runs. -/
theorem restore_repairs_once (limits : TranscriptLimits) (stream : StreamKey)
    (host : TranscriptHost α) (loaded : TranscriptStoredStream) (st : ScanState)
    (prepared : List DurableTranscriptRecord)
    (hscan : scanCommittedTranscript limits stream loaded none = .ok st)
    (hpending : st.pendingDeferred = none)
    (hbudget : repairRecords limits stream host loaded.revision st = .ok prepared) :
    (∀ crash, ∃ stored st', appendEach limits loaded (prepared.take crash) = .ok stored ∧
      stored.records = loaded.records ++ prepared.take crash ∧
      scanCommittedTranscript limits stream stored none = .ok st' ∧
      st'.pendingDeferred = none) ∧
    ∀ restored stored, restore limits stream host loaded = .ok (restored, stored) →
      (∃ st', scanCommittedTranscript limits stream stored none = .ok st' ∧
        st'.openTurn = none ∧
        ∀ runId origin, st'.latestDeferredOrigins.get? runId = some origin →
          runId ∈ st'.closedDeferredRuns ∨
            ∃ closure, st'.lastClosedTurns.get? runId = some closure ∧
              closure.status = .completed ∧ closure.assistantStopReason = some .toolUse) ∧
      ∀ (later : TranscriptHost α) messages,
        later.materialize stream restored.durableMessages = .ok messages →
        ∃ again, restore limits stream later stored = .ok (again, stored) ∧
          again.revision = restored.revision ∧
          again.durableMessages = restored.durableMessages ∧
          again.terminalDeferredRuns = restored.terminalDeferredRuns := by
  refine ⟨?_, ?_⟩
  · intro crash
    obtain ⟨st', -, hleft, happend, haccepted⟩ :=
      repair_prefix_accepted hscan hpending hbudget crash
    exact ⟨_, st', happend, rfl, haccepted, hleft.settled⟩
  · intro restored stored hrestore
    obtain ⟨st₀, prepared₀, messages₀, hscan₀, hprepared₀, happend₀, hsnapshot, -, rfl⟩ :=
      restore_eq_ok_iff.1 hrestore
    rw [hscan, Except.ok.injEq] at hscan₀
    subst hscan₀
    rw [hbudget, Except.ok.injEq] at hprepared₀
    subst hprepared₀
    obtain ⟨st', hrun, hleft, happend, haccepted⟩ :=
      repair_prefix_accepted hscan hpending hbudget prepared.length
    have hlength : (repairDrafts host st).length = prepared.length := by
      have := congrArg List.length (repairRecords_data hbudget)
      simpa using this.symm
    rw [List.take_length] at hrun happend haccepted
    rw [← hlength, List.drop_length] at hleft
    rw [happend, Except.ok.injEq] at happend₀
    subst happend₀
    obtain ⟨hopen, hdone⟩ := hleft.done
    obtain ⟨hmessages, hterminals, -⟩ := repair_run_output (prepared_isRepair hbudget) hrun
    refine ⟨⟨st', haccepted, hopen, ?_⟩, ?_⟩
    · intro runId origin horigin
      exact runs_closed_of_done hleft.coherent hopen hdone horigin
    · intro later messages hmaterialize
      have hnothing : repairRecords limits stream later st'.actualRevision st' = .ok [] := by
        unfold repairRecords
        rw [repairDrafts_closed later hopen, hdone]
        rfl
      refine ⟨_, restore_eq_ok_iff.2 ⟨st', [], messages, haccepted, hnothing, rfl, ?_, ?_, rfl⟩,
        rfl, ?_, ?_⟩
      · simpa [hmessages] using hsnapshot
      · simpa [hmessages] using hmaterialize
      · simp [hmessages]
      · simp [hterminals]

/-- A log that ends inside a turn: the crash came right after the user message. -/
def interruptedLog : TranscriptStoredStream :=
  ⟨.at 1, [⟨"record-1", 1, ⟨"session", "actor", "run", 0⟩, .userCompleted (.text "Hello" 0)⟩]⟩

def interruptedHost : TranscriptHost Unit where
  newRecordId := fun _ => "repair-1"
  now := fun _ => 0
  recoverStartedTool := fun _ _ => none
  materialize := fun _ _ => .ok ()

theorem restore_repairs_once_interrupted :
    ∃ st prepared,
      scanCommittedTranscript ⟨1000, 1000, 2000, 20⟩ ⟨"session", "actor"⟩ interruptedLog none =
        .ok st ∧
      repairRecords ⟨1000, 1000, 2000, 20⟩ ⟨"session", "actor"⟩ interruptedHost (.at 1) st =
        .ok prepared ∧ prepared.length = 1 ∧
      ∀ crash, ∃ stored st',
        appendEach ⟨1000, 1000, 2000, 20⟩ interruptedLog (prepared.take crash) = .ok stored ∧
        stored.records = interruptedLog.records ++ prepared.take crash ∧
        scanCommittedTranscript ⟨1000, 1000, 2000, 20⟩ ⟨"session", "actor"⟩ stored none = .ok st' ∧
        st'.pendingDeferred = none := by
  have h : (do
      let st ← scanCommittedTranscript ⟨1000, 1000, 2000, 20⟩ ⟨"session", "actor"⟩ interruptedLog
        none
      let prepared ← repairRecords ⟨1000, 1000, 2000, 20⟩ ⟨"session", "actor"⟩ interruptedHost
        (.at 1) st
      return (st.pendingDeferred.isNone, prepared.length)) = .ok (true, 1) := by
    decide +kernel
  obtain ⟨st, hscan, h⟩ := bind_eq_ok.1 h
  obtain ⟨prepared, hprepared, h⟩ := bind_eq_ok.1 h
  simp only [pure, Except.pure, Except.ok.injEq, Prod.mk.injEq, Option.isNone_iff_eq_none] at h
  exact ⟨st, prepared, hscan, hprepared, h.2,
    (restore_repairs_once _ _ interruptedHost interruptedLog st prepared hscan h.1 hprepared).1⟩

end OpenGameAgent
