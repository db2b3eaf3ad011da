import OpenGameAgent.Actions.InMemoryJournal
import OpenGameAgent.Actions.Ledger
import OpenGameAgent.Library.StableSort

/-!
# The in-memory journal refines the ledger

Every call on an in-memory journal, whether it answers or throws, is a path of changes
to the journal's ledger that fits the call: `call_path`.
-/

namespace OpenGameAgent

namespace InMemoryActionJournal

/-- What the journal says of its records and its conflict keys. -/
def ledger (journal : InMemoryActionJournal) : Ledger :=
  ⟨journal.records.get?, journal.conflicts.get?⟩

variable {ctx : ActionContext} {authority : RunAuthorityCheck}

/-! ## Conflict keys -/

theorem get?_acquire (journal : InMemoryActionJournal) (record : ActionRecord) :
    (journal.acquire record).conflicts.get? = acquired journal.conflicts.get? record := by
  funext key
  unfold acquire acquired
  dsimp only
  generalize journal.conflicts = conflicts
  induction record.conflictKeys generalizing conflicts with
  | nil => simp
  | cons head rest ih =>
    rw [List.foldl_cons, ih, OrderedMap.get?_set]
    by_cases hs : key.1 = record.sessionId
    · by_cases hm : key.2 ∈ rest
      · simp [hs, hm]
      · by_cases hh : key.2 = head
        · have hk : (record.sessionId, head) = key := by rw [← hs, ← hh]
          simp [hs, hh, hk]
        · have hk : (record.sessionId, head) ≠ key := by
            intro hc
            exact hh (by rw [← hc])
          simp [hs, hm, hh, hk]
    · have hk : (record.sessionId, head) ≠ key := by
        intro hc
        exact hs (by rw [← hc])
      simp [hs, hk]

theorem get?_release (journal : InMemoryActionJournal) (record : ActionRecord) :
    (journal.release record).conflicts.get? = released journal.conflicts.get? record := by
  have h := map_get?_foldl_delete id record journal.conflicts
  simp only [Option.map_id, id] at h
  exact h

theorem canAcquire_iff {journal : InMemoryActionJournal} {record : ActionRecord} :
    journal.canAcquire record = true ↔ CanAcquire journal.conflicts.get? record := by
  unfold canAcquire CanAcquire
  simp only [List.all_eq_true, Option.all_eq_true, decide_eq_true_eq]

@[simp] theorem release_records (journal : InMemoryActionJournal) (record : ActionRecord) :
    (journal.release record).records = journal.records := rfl

/-- Writing a record changes the ledger under the record's key alone. -/
theorem ledger_put (journal : InMemoryActionJournal) (record : ActionRecord) :
    (journal.put record).ledger =
      ⟨journal.ledger.write record.key (some record), journal.ledger.owner⟩ := by
  unfold ledger put Ledger.write
  congr 1
  funext key
  rw [OrderedMap.get?_set]
  simp only [eq_comm]

/-- One move, written to the journal. -/
theorem step_put {journal base : InMemoryActionJournal} {record moved : ActionRecord}
    {move : ActionMove} (hbase : base.records = journal.records)
    (hpresent : journal.records.get? record.key = some record) (hmoves : Moves record move moved)
    (howners : move.Owners record moved journal.conflicts.get? base.conflicts.get?) :
    journal.ledger.Step (.move record move moved) (base.put moved).ledger := by
  have hwrite : base.ledger.write moved.key (some moved) =
      journal.ledger.write record.key (some moved) := by
    rw [hmoves.key]
    unfold Ledger.write ledger
    rw [hbase]
  rw [ledger_put, hwrite]
  exact Ledger.Step.move hpresent hmoves howners

/-! ## Sweeps -/

/-- A check on a run reads the journal and leaves it. -/
theorem ends_isRunOpen {record : ActionRecord} {journal : InMemoryActionJournal}
    {Q : Bool → InMemoryActionJournal → Prop} {E : ActionError → InMemoryActionJournal → Prop}
    (hQ : ∀ isOpen, Q isOpen journal) (hE : ∀ e, E e journal) :
    Ends (isRunOpen authority record) journal Q E :=
  ends_attempt.2 ⟨fun isOpen _ => hQ isOpen, fun e _ => hE e⟩

theorem retireLoop_sweeps (request : ActionClaimRequest) (keys : List ActionKey) (retired : Nat)
    (journal : InMemoryActionJournal) :
    Ends (retireLoop ctx authority request retired keys) journal
      (fun _ journal' => journal.ledger.Sweeps request.claimedAt journal'.ledger)
      (fun _ journal' => journal.ledger.Sweeps request.claimedAt journal'.ledger) := by
  induction keys generalizing retired journal with
  | nil => exact Ledger.Sweeps.refl _ _
  | cons key rest ih =>
    simp only [retireLoop, ends_bind, ends_get]
    split
    · exact ih retired journal
    · rename_i record hrecord
      split
      · exact ih retired journal
      · rw [ends_bind]
        refine ends_isRunOpen (fun isOpen => ?_) (fun _ => Ledger.Sweeps.refl _ _)
        split
        · exact ih retired journal
        · simp only [ends_bind, ends_modify, ends_attempt]
          refine ⟨?_, fun _ _ => Ledger.Sweeps.refl _ _⟩
          intro transition htransition
          refine ⟨fun _ _ => ⟨fun _ _ => ?_, fun _ _ => Ledger.Sweeps.refl _ _⟩,
            fun _ _ => Ledger.Sweeps.refl _ _⟩
          obtain ⟨hvalid, hpending, hunapplied, rfl⟩ :=
            retirePendingActionRecord_eq_ok_iff.1 htransition
          have hkey := journal.keyed key record hrecord
          have hmoves := Moves.retire hvalid hpending hunapplied
          have howners : (ActionMove.retire request.claimedAt).Owners record
              (record.retiredAt request.claimedAt) journal.conflicts.get? (journal.release record).conflicts.get? := by
            rw [get?_release]
            exact released_drops _ _
          have hstep := step_put (release_records journal record) (hkey ▸ hrecord) hmoves howners
          split
          · exact Ledger.Sweeps.cons hstep rfl (Ledger.Sweeps.refl _ _)
          · refine (ih (retired + 1) _).mono (fun _ _ h => ?_) (fun _ _ h => ?_)
            · exact Ledger.Sweeps.cons hstep rfl h
            · exact Ledger.Sweeps.cons hstep rfl h

/-! ## Claims whose lease has run out -/

/-- The due claims of a list of records, with their expiry. -/
def dueEntries (request : ActionClaimRequest) (records : List ActionRecord) :
    List (ActionRecord × String) :=
  records.filterMap fun record =>
    if record.dueFor request then record.claim.map fun claim => (record, claim.expiresAt) else none

/-- Keeping the first few while reading is sorting and taking the first few. -/
theorem foldl_pushDue (request : ActionClaimRequest) (records : List ActionRecord) :
    records.foldl (pushDue request) [] =
      ((dueEntries request records).insertionSort fun left right => left.2 ≤ right.2).take
        request.candidateLimit := by
  have hfold : ∀ kept, records.foldl (pushDue request) kept = (dueEntries request records).foldl
      (fun kept entry => ((kept ++ [entry]).insertionSort
        fun left right => left.2 ≤ right.2).take request.candidateLimit) kept := by
    unfold dueEntries
    induction records with
    | nil => intro kept; rfl
    | cons record rest ih =>
      intro kept
      rw [List.foldl_cons, ih, List.filterMap_cons]
      unfold pushDue
      cases hclaim : record.claim with
      | none => simp
      | some claim =>
        by_cases hdue : record.dueFor request = true
        · simp [hdue]
        · simp [hdue]
  rw [hfold]
  exact foldl_keep (fun a b : ActionRecord × String => le_total a.2 b.2)
    (fun _ _ _ => le_trans) request.candidateLimit _

theorem mem_dueEntries {request : ActionClaimRequest} {records : List ActionRecord}
    {entry : ActionRecord × String} (h : entry ∈ dueEntries request records) :
    entry.1 ∈ records := by
  unfold dueEntries at h
  obtain ⟨record, hmem, hentry⟩ := List.mem_filterMap.1 h
  split at hentry
  · obtain ⟨claim, -, rfl⟩ := Option.map_eq_some_iff.1 hentry
    exact hmem
  · cases hentry

theorem dueEntries_sublist (request : ActionClaimRequest) (records : List ActionRecord) :
    ((dueEntries request records).map Prod.fst).Sublist records := by
  unfold dueEntries
  induction records with
  | nil => simp
  | cons record rest ih =>
    rw [List.filterMap_cons]
    split
    · exact ih.cons record
    · rename_i entry hentry
      rw [List.map_cons]
      have hfst : entry.1 = record := by
        split at hentry
        · obtain ⟨claim, -, rfl⟩ := Option.map_eq_some_iff.1 hentry
          rfl
        · cases hentry
      rw [hfst]
      exact ih.cons_cons record

/-- The keys of the records are the keys of the map. -/
theorem map_key_values (journal : InMemoryActionJournal) :
    journal.records.values.map ActionRecord.key = journal.records.keys := by
  unfold OrderedMap.values OrderedMap.keys
  rw [List.map_map]
  refine List.map_congr_left fun entry hmem => ?_
  exact journal.keyed entry.1 entry.2 (OrderedMap.get?_eq_some_iff.2 hmem)

theorem mem_values_iff {journal : InMemoryActionJournal} {record : ActionRecord} :
    record ∈ journal.records.values ↔ journal.records.get? record.key = some record := by
  unfold OrderedMap.values
  rw [List.mem_map]
  constructor
  · rintro ⟨entry, hmem, rfl⟩
    have hget := OrderedMap.get?_eq_some_iff.2 hmem
    rwa [journal.keyed _ _ hget]
  · intro hget
    exact ⟨(record.key, record), OrderedMap.get?_eq_some_iff.1 hget, rfl⟩

theorem expireLoop_sweeps (request : ActionClaimRequest) (records : List ActionRecord)
    (replayable : List String) (changed : Bool) (journal : InMemoryActionJournal)
    (hpresent : ∀ record ∈ records, journal.records.get? record.key = some record)
    (hnodup : (records.map ActionRecord.key).Nodup) :
    Ends (expireLoop ctx authority request replayable changed records) journal
      (fun _ journal' => journal.ledger.Sweeps request.claimedAt journal'.ledger)
      (fun _ journal' => journal.ledger.Sweeps request.claimedAt journal'.ledger) := by
  induction records generalizing replayable changed journal with
  | nil => exact Ledger.Sweeps.refl _ _
  | cons record rest ih =>
    rw [List.map_cons, List.nodup_cons] at hnodup
    have hrest : ∀ other ∈ rest, journal.records.get? other.key = some other :=
      fun other hmem => hpresent other (List.mem_cons_of_mem _ hmem)
    have hloop : ∀ isOpen : Bool, Ends
        (if isOpen then
            expireLoop ctx authority request (replayable ++ [record.operationId]) changed rest
          else do
            let transition ← attempt (expireActionRecord record request.claimedAt)
            attempt (assertActionGoalProjectionRecordFits ctx transition.record)
            if transition.releaseConflicts then modify fun journal => journal.release record
            modify fun journal => journal.put transition.record
            expireLoop ctx authority request replayable true rest) journal
        (fun _ journal' => journal.ledger.Sweeps request.claimedAt journal'.ledger)
        (fun _ journal' => journal.ledger.Sweeps request.claimedAt journal'.ledger) := by
      intro isOpen
      split
      · exact ih _ _ journal hrest hnodup.2
      · simp only [ends_bind, ends_attempt]
        refine ⟨?_, fun _ _ => Ledger.Sweeps.refl _ _⟩
        intro transition htransition
        refine ⟨fun _ _ => ?_, fun _ _ => Ledger.Sweeps.refl _ _⟩
        obtain ⟨hvalid, hclaimed, hdue, rfl⟩ := expireActionRecord_eq_ok_iff.1 htransition
        have hmoves := Moves.expire hvalid hclaimed hdue
        have hbase : journal.records = journal.records := rfl
        have hstep := step_put hbase (hpresent record (List.mem_cons_self ..)) hmoves rfl
        simp only [Bool.false_eq_true, if_false]
        have hpresent' : ∀ other ∈ rest, (journal.put
            (record.expiredAt request.claimedAt)).records.get? other.key = some other := by
          intro other hmem
          have hne : record.key ≠ other.key :=
            fun hc => hnodup.1 (hc ▸ List.mem_map_of_mem hmem)
          exact (OrderedMap.get?_set_of_ne _ hne _).trans (hrest other hmem)
        refine (ih _ _ _ hpresent' hnodup.2).mono (fun _ _ h => ?_) (fun _ _ h => ?_)
        · exact Ledger.Sweeps.cons hstep rfl h
        · exact Ledger.Sweeps.cons hstep rfl h
    simp only [expireLoop, ends_bind]
    split
    · exact ends_isRunOpen hloop fun _ => Ledger.Sweeps.refl _ _
    · exact hloop false

theorem expireDueClaims_sweeps (request : ActionClaimRequest) (journal : InMemoryActionJournal) :
    Ends (expireDueClaims ctx authority request) journal
      (fun _ journal' => journal.ledger.Sweeps request.claimedAt journal'.ledger)
      (fun _ journal' => journal.ledger.Sweeps request.claimedAt journal'.ledger) := by
  simp only [expireDueClaims, ends_bind, ends_get]
  rw [foldl_pushDue]
  apply expireLoop_sweeps
  · intro record hmem
    obtain ⟨entry, hentry, rfl⟩ := List.mem_map.1 hmem
    have hdue := (List.mem_insertionSort _).1 (List.mem_of_mem_take hentry)
    exact mem_values_iff.1 (mem_dueEntries hdue)
  · have hsorted : (((dueEntries request journal.records.values).insertionSort
        fun left right => left.2 ≤ right.2).map fun entry => entry.1.key).Nodup := by
      have hperm := (List.perm_insertionSort (fun left right : ActionRecord × String =>
        left.2 ≤ right.2) (dueEntries request journal.records.values)).map
          fun entry : ActionRecord × String => entry.1.key
      rw [hperm.nodup_iff]
      have hsub := (dueEntries_sublist request journal.records.values).map ActionRecord.key
      rw [List.map_map] at hsub
      refine hsub.nodup ?_
      rw [map_key_values]
      exact journal.records.nodup
    rw [List.map_map]
    exact ((List.take_sublist _ _).map _).nodup hsorted

/-! ## Dispatch -/

/-- The first candidate that can be claimed is dispatched; otherwise nothing happens. -/
theorem claimLoop_dispatches (request : ActionClaimRequest) (replayable : List String)
    (keys : List ActionKey) (scanned : Nat) (journal : InMemoryActionJournal) :
    Ends (claimLoop ctx authority request replayable scanned keys) journal
      (fun claimed journal' => match claimed with
        | none => journal' = journal
        | some moved => ∃ dispatch, journal.ledger.Step dispatch journal'.ledger ∧
            dispatch.IsDispatch request moved)
      (fun _ journal' => journal' = journal) := by
  induction keys generalizing scanned with
  | nil => exact rfl
  | cons key rest ih =>
    simp only [claimLoop, ends_bind, ends_get]
    split
    · exact ih scanned
    · rename_i record hrecord
      have hpresent : journal.records.get? record.key = some record :=
        (journal.keyed key record hrecord) ▸ hrecord
      split
      · exact ih scanned
      · split
        · exact rfl
        · rw [ends_bind]
          refine ends_isRunOpen (fun isOpen => ?_) (fun _ => rfl)
          split
          · split
            · exact ih (scanned + 1)
            · rename_i hcan
              rw [Bool.not_eq_true', Bool.not_eq_false] at hcan
              have hacquire := canAcquire_iff.1 hcan
              simp only [ends_bind, ends_attempt]
              refine ⟨?_, fun _ _ => trivial⟩
              intro transition htransition
              refine ⟨fun _ _ => ⟨fun _ _ => ?_, fun _ _ => trivial⟩, fun _ _ => trivial⟩
              cases hreplay : replayable.contains record.operationId with
              | true =>
                rw [hreplay, if_pos rfl] at htransition
                obtain ⟨hvalid, hclaimed, hsafe, hdue, rfl⟩ :=
                  reclaimActionRecord_eq_ok_iff.1 htransition
                refine ⟨.move record (.reclaim request) (record.claimedBy request), ?_, rfl,
                  rfl⟩
                refine step_put rfl hpresent (Moves.reclaim hvalid hclaimed hsafe hdue)
                  ⟨hacquire, ?_⟩
                rw [get?_acquire, get?_release]
                rfl
              | false =>
                rw [hreplay, if_neg Bool.false_ne_true] at htransition
                obtain ⟨hvalid, hpending, rfl⟩ := claimActionRecord_eq_ok_iff.1 htransition
                refine ⟨.move record (.claim request) (record.claimedBy request), ?_, rfl, rfl⟩
                refine step_put rfl hpresent (Moves.claim hvalid hpending) ⟨hacquire, ?_⟩
                rw [get?_acquire]
                rfl
          · exact ih (scanned + 1)

/-- `nextDelivery` sweeps and then dispatches at most one action. -/
theorem nextDelivery_path (request : ActionClaimRequest) (journal : InMemoryActionJournal) :
    Ends (nextDelivery ctx authority request) journal
      (fun selection journal' => ∃ changes,
        Ledger.Path journal.ledger changes journal'.ledger ∧
          Fits (.nextDelivery request) (some (.selection selection)) changes)
      (fun _ journal' => ∃ changes,
        Ledger.Path journal.ledger changes journal'.ledger ∧
          Fits (.nextDelivery request) none changes) := by
  have hfits : ∀ journal' : InMemoryActionJournal, journal.ledger.Sweeps request.claimedAt journal'.ledger → ∃ changes,
      Ledger.Path journal.ledger changes journal'.ledger ∧
        Fits (.nextDelivery request) none changes := fun _ h => h
  simp only [nextDelivery, retireClosedPending, ends_bind, ends_attempt, ends_get]
  refine ⟨fun _ _ => ?_, fun _ _ => hfits _ (Ledger.Sweeps.refl _ _)⟩
  refine (retireLoop_sweeps request _ 0 journal).mono (fun retired swept hretired => ?_)
    (fun _ _ h => hfits _ h)
  rw [ends_pure]
  refine (expireDueClaims_sweeps request swept).mono (fun expired journal₂ hexpired => ?_)
    (fun _ _ h => hfits _ (hretired.trans h))
  obtain ⟨replayable, changed⟩ := expired
  have hsweeps := hretired.trans hexpired
  dsimp only
  split
  · exact hfits _ hsweeps
  · simp only [ends_bind, claimPendingRecord, ends_get]
    refine (claimLoop_dispatches request replayable _ 0 journal₂).mono
      (fun claimed journal₃ hclaimed => ?_) (fun _ journal₃ h => hfits _ (h ▸ hsweeps))
    cases claimed with
    | none =>
      dsimp only at hclaimed
      subst hclaimed
      simp only [ends_bind, ends_get, ends_pure]
      obtain ⟨changes, hpath, hall⟩ := hsweeps
      refine ⟨changes, hpath, ?_⟩
      cases journal₃.oldestUnsettled request.stream request.runId [] <;> exact hall
    | some moved =>
      obtain ⟨dispatch, hstep, hdispatch⟩ := hclaimed
      obtain ⟨sweep, hpath, hall⟩ := hsweeps
      exact ⟨sweep ++ [dispatch], hpath.append (.single hstep), sweep, dispatch, rfl, hall,
        hdispatch⟩

/-! ## The other methods -/

/-- `require` finds a record under its own key and leaves the journal alone. -/
theorem ends_require {key : ActionKey} {journal : InMemoryActionJournal}
    {Q : ActionRecord → InMemoryActionJournal → Prop}
    {E : ActionError → InMemoryActionJournal → Prop}
    (hQ : ∀ record, journal.records.get? key = some record → Q record journal)
    (hE : ∀ e, E e journal) : Ends (require key) journal Q E := by
  simp only [require, ends_bind, ends_attempt, ends_get]
  refine ⟨fun _ _ => ⟨fun _ _ => ?_, fun e _ => hE e⟩, fun e _ => hE e⟩
  split
  · exact hE _
  · rename_i record hrecord
    exact hQ record hrecord

/-- A transition that moves a record is one change of the ledger. -/
theorem store_path {journal : InMemoryActionJournal} {record : ActionRecord}
    {transition : ActionTransition} {Q : ActionRecord → InMemoryActionJournal → Prop}
    {E : ActionError → InMemoryActionJournal → Prop}
    (hsame : transition.replayed = true → Q transition.record journal)
    (hmoved : transition.replayed = false → ∀ base : InMemoryActionJournal,
      base.records = journal.records →
      base.conflicts.get? = (if transition.releaseConflicts then
        released journal.conflicts.get? record else journal.conflicts.get?) →
      Q transition.record (base.put transition.record))
    (hE : ∀ e, E e journal) : Ends (store ctx record transition) journal Q E := by
  unfold store
  cases hreplayed : transition.replayed with
  | true =>
    simp only [if_true, ends_pure]
    exact hsame hreplayed
  | false =>
    simp only [Bool.false_eq_true, if_false, ends_bind, ends_attempt]
    refine ⟨fun _ _ => ?_, fun e _ => hE e⟩
    cases hrelease : transition.releaseConflicts with
    | true =>
      refine hmoved hreplayed (journal.release record) rfl ?_
      rw [hrelease, if_pos rfl, get?_release]
    | false =>
      refine hmoved hreplayed journal rfl ?_
      rw [hrelease, if_neg Bool.false_ne_true]

/-- A call that leaves the journal as it is. -/
theorem path_nil (journal : InMemoryActionJournal) :
    Ledger.Path journal.ledger [] journal.ledger := .nil _

theorem ensure_path (intent : PreparedActionIntent) (now : String)
    (journal : InMemoryActionJournal) :
    Ends (ensure ctx authority intent now) journal
      (fun _ journal' => ∃ changes, Ledger.Path journal.ledger changes journal'.ledger ∧
        (changes = [] ∨ changes = [.admission (intent.admitted now)]))
      (fun _ journal' => journal' = journal) := by
  simp only [ensure, ends_bind, ends_attempt, ends_get]
  refine ⟨fun _ _ => ?_, fun _ _ => trivial⟩
  split
  · split
    · exact rfl
    · exact ⟨[], path_nil journal, Or.inl rfl⟩
  · rename_i hfresh
    simp only [ends_bind, ends_attempt, ends_set, ends_pure]
    refine ⟨fun _ _ => ⟨fun _ _ => ⟨fun _ _ => ⟨fun _ _ => ?_, fun _ _ => trivial⟩,
      fun _ _ => trivial⟩, fun _ _ => trivial⟩, fun _ _ => trivial⟩
    refine ⟨[.admission (intent.admitted now)], .single ?_, Or.inr rfl⟩
    have hput := ledger_put journal (intent.admitted now)
    have hstep : journal.ledger.Step (.admission (intent.admitted now))
        ⟨journal.ledger.write (intent.admitted now).key (some (intent.admitted now)),
          journal.ledger.owner⟩ := Ledger.Step.admission hfresh rfl rfl rfl
    rw [← hput] at hstep
    exact hstep

theorem recordReceipt_path (input : ActionReceiptInput) (journal : InMemoryActionJournal) :
    Ends (recordReceipt ctx input) journal
      (fun _ journal' => ∃ changes, Ledger.Path journal.ledger changes journal'.ledger ∧
        (changes = [] ∨ ∃ record moved, record.key = input.key ∧
          changes = [.move record (.receipt input) moved]))
      (fun _ journal' => journal' = journal) := by
  simp only [recordReceipt, ends_bind]
  refine ends_require (fun record hrecord => ?_) (fun _ => rfl)
  have hkey := journal.keyed _ record hrecord
  simp only [ends_attempt]
  refine ⟨fun transition htransition => ?_, fun _ _ => trivial⟩
  rcases receiptActionRecord_cases htransition with ⟨rfl, -⟩ | ⟨hmoves, hfresh, hrelease⟩
  · exact store_path (fun _ => ⟨[], path_nil journal, Or.inl rfl⟩) (fun hc => by cases hc)
      (fun _ => rfl)
  · refine store_path (fun hc => absurd hc (by simp [hfresh])) (fun _ base hbase howners => ?_)
      (fun _ => rfl)
    refine ⟨[.move record (.receipt input) transition.record], .single ?_,
      Or.inr ⟨record, transition.record, hkey, rfl⟩⟩
    refine step_put hbase (hkey ▸ hrecord) hmoves ?_
    show base.conflicts.get? = _
    rw [howners, hrelease]
    cases transition.record.status.unsettled <;> rfl

theorem reconcile_path (input : ActionReconcileInput) (journal : InMemoryActionJournal) :
    Ends (reconcile ctx authority input) journal
      (fun _ journal' => ∃ changes, Ledger.Path journal.ledger changes journal'.ledger ∧
        Reconciles input changes)
      (fun _ journal' => journal' = journal) := by
  simp only [reconcile, ends_bind]
  refine ends_require (fun record hrecord => ?_) (fun _ => rfl)
  have hkey := journal.keyed _ record hrecord
  have hpresent : journal.records.get? record.key = some record := hkey ▸ hrecord
  simp only [ends_attempt]
  refine ⟨fun transition htransition => ?_, fun _ _ => trivial⟩
  have hcases := reconcileActionRecord_cases htransition
  have hown : ∀ base : InMemoryActionJournal,
      base.conflicts.get? = (if transition.releaseConflicts then
        released journal.conflicts.get? record else journal.conflicts.get?) →
      transition.releaseConflicts = !transition.record.status.unsettled →
      (ActionMove.reconcile input).Owners record transition.record journal.conflicts.get?
        base.conflicts.get? := by
    intro base howners hrelease
    show base.conflicts.get? = _
    rw [howners, hrelease]
    cases transition.record.status.unsettled <;> rfl
  have hloop : ∀ isOpen : Bool, Ends
      (if isOpen then store ctx record transition
        else do
          let retired ← attempt (retirePendingActionRecord transition.record input.reconciledAt)
          store ctx record ⟨retired.record, transition.releaseConflicts, false⟩) journal
      (fun _ journal' => ∃ changes, Ledger.Path journal.ledger changes journal'.ledger ∧
        Reconciles input changes)
      (fun _ journal' => journal' = journal) := by
    intro isOpen
    split
    · -- The reconciliation stands as it is.
      rcases hcases with ⟨rfl, -⟩ | ⟨hmoves, hfresh, hrelease⟩
      · exact store_path (fun _ => ⟨[], path_nil journal, [], [], rfl, Or.inl rfl, Or.inl rfl⟩)
          (fun hc => by cases hc) (fun _ => rfl)
      · refine store_path (fun hc => absurd hc (by simp [hfresh]))
          (fun _ base hbase howners => ?_) (fun _ => rfl)
        refine ⟨[.move record (.reconcile input) transition.record], .single ?_,
          [.move record (.reconcile input) transition.record], [], rfl,
          Or.inr ⟨record, transition.record, hkey, rfl⟩, Or.inl rfl⟩
        exact step_put hbase hpresent hmoves (hown base howners hrelease)
    · -- The run is closed: what would be dispatched again is retired.
      simp only [ends_bind, ends_attempt]
      refine ⟨fun retired hretired => ?_, fun _ _ => trivial⟩
      obtain ⟨hvalid, hpending, hunapplied, rfl⟩ := retirePendingActionRecord_eq_ok_iff.1 hretired
      have hretire := Moves.retire hvalid hpending hunapplied
      refine store_path (fun hc => by cases hc) (fun _ base hbase howners => ?_) (fun _ => rfl)
      rcases hcases with ⟨rfl, -⟩ | ⟨hmoves, hfresh, hrelease⟩
      · refine ⟨[.move record (.retire input.reconciledAt) (record.retiredAt input.reconciledAt)],
          .single ?_, [],
          [.move record (.retire input.reconciledAt) (record.retiredAt input.reconciledAt)], rfl,
          Or.inl rfl, Or.inr ⟨record, _, rfl⟩⟩
        refine step_put hbase hpresent hretire ?_
        show Drops record _ _
        rw [howners]
        intro key
        exact Or.inl rfl
      · -- The ledger passes through the pending record on the way.
        have hmid := step_put hbase hpresent hmoves
          (hown base howners hrelease)
        refine ⟨[.move record (.reconcile input) transition.record,
          .move transition.record (.retire input.reconciledAt)
            (transition.record.retiredAt input.reconciledAt)], .cons hmid (.single ?_),
          [.move record (.reconcile input) transition.record],
          [.move transition.record (.retire input.reconciledAt)
            (transition.record.retiredAt input.reconciledAt)], rfl,
          Or.inr ⟨record, transition.record, hkey, rfl⟩, Or.inr ⟨transition.record, _, rfl⟩⟩
        have hput : (base.put (transition.record.retiredAt input.reconciledAt)).ledger =
            ((base.put transition.record).put
              (transition.record.retiredAt input.reconciledAt)).ledger := by
          rw [ledger_put, ledger_put, ledger_put]
          exact congrArg (Ledger.mk · base.conflicts.get?)
            (Ledger.write_write base.ledger _ transition.record.key _ _).symm
        rw [hput]
        refine step_put rfl ?_ hretire ?_
        · exact OrderedMap.get?_set_self _ _ _
        · intro key
          exact Or.inl rfl
  split
  · exact ends_isRunOpen hloop fun _ => rfl
  · exact hloop true

theorem settleGoalProjection_path (input : ActionGoalProjectionSettlementInput)
    (journal : InMemoryActionJournal) :
    Ends (settleGoalProjection ctx input) journal
      (fun _ journal' => ∃ changes, Ledger.Path journal.ledger changes journal'.ledger ∧
        Fits (.settleGoalProjection input) none changes)
      (fun _ journal' => journal' = journal) := by
  simp only [settleGoalProjection, ends_bind, ends_attempt]
  refine ⟨fun _ _ => ?_, fun _ _ => trivial⟩
  refine ends_require (fun record hrecord => ?_) (fun _ => rfl)
  have hkey := journal.keyed _ record hrecord
  refine ⟨fun settled hsettled => ?_, fun _ _ => rfl⟩
  rcases settleActionGoalProjectionRecord_cases hsettled with rfl | ⟨hmoves, hfresh⟩
  · exact ⟨[], path_nil journal, Or.inl rfl⟩
  · rw [hfresh, if_neg Bool.false_ne_true]
    simp only [ends_bind, ends_attempt, ends_modify, ends_pure]
    refine ⟨fun _ _ => ⟨fun _ _ => ?_, fun _ _ => trivial⟩, fun _ _ => trivial⟩
    refine ⟨[.move record (.settle input) settled.record], .single ?_,
      Or.inr ⟨record, settled.record, rfl⟩⟩
    exact step_put rfl (hkey ▸ hrecord) hmoves rfl

/-! ## Purging -/

theorem purgeCandidates_spec (request : ActionTerminalPurgeRequest)
    (journal : InMemoryActionJournal) :
    (∀ record ∈ journal.purgeCandidates request,
        journal.records.get? record.key = some record ∧ record.status.terminal = true) ∧
      ((journal.purgeCandidates request).map ActionRecord.key).Nodup := by
  unfold purgeCandidates
  dsimp only
  generalize heligible : (journal.records.entries.filterMap fun entry =>
    (journal.sequences.get? entry.1).map fun sequence => (entry.2, sequence)) = eligible
  have hsub : (eligible.map Prod.fst).Sublist journal.records.values := by
    rw [← heligible]
    unfold OrderedMap.values
    generalize journal.records.entries = entries
    induction entries with
    | nil => simp
    | cons entry rest ih =>
      rw [List.filterMap_cons]
      split
      · exact ih.cons _
      · rename_i pair hpair
        obtain ⟨sequence, -, rfl⟩ := Option.map_eq_some_iff.1 hpair
        exact ih.cons_cons _
  have hfilter := (List.filter_sublist
    (p := fun entry : ActionRecord × Nat => entry.1.purgeable request) (l := eligible)).map
      Prod.fst
  have hperm := List.perm_insertionSort purgeBefore
    (eligible.filter fun entry => entry.1.purgeable request)
  constructor
  · intro record hmem
    obtain ⟨entry, hentry, rfl⟩ := List.mem_map.1 hmem
    have hin := (List.mem_insertionSort _).1 (List.mem_of_mem_take hentry)
    obtain ⟨heligible, hpurgeable⟩ := List.mem_filter.1 hin
    have hvalue := hsub.subset (List.mem_map_of_mem heligible)
    refine ⟨mem_values_iff.1 hvalue, ?_⟩
    unfold ActionRecord.purgeable at hpurgeable
    simp only [Bool.and_eq_true] at hpurgeable
    exact hpurgeable.1.1.2
  · have hkeys : (journal.records.values.map ActionRecord.key).Nodup := by
      rw [map_key_values]
      exact journal.records.nodup
    have hall := ((hfilter.trans hsub).map ActionRecord.key).nodup hkeys
    rw [List.map_map] at hall ⊢
    exact ((List.take_sublist _ _).map _).nodup ((hperm.map _).nodup_iff.2 hall)

theorem remove_path (records : List ActionRecord) (journal : InMemoryActionJournal)
    (hpresent : ∀ record ∈ records, journal.records.get? record.key = some record ∧
      record.status.terminal = true)
    (hnodup : (records.map ActionRecord.key).Nodup) :
    Ledger.Path journal.ledger (records.map LedgerChange.purge)
      (records.foldl remove journal).ledger := by
  induction records generalizing journal with
  | nil => exact .nil _
  | cons record rest ih =>
    rw [List.map_cons, List.nodup_cons] at hnodup
    obtain ⟨hrecord, hterminal⟩ := hpresent record (List.mem_cons_self ..)
    have howners : Drops record journal.ledger.owner (journal.remove record).ledger.owner := by
      show Drops record journal.conflicts.get? (journal.release record).conflicts.get?
      rw [get?_release]
      exact released_drops _ _
    have hstep := Ledger.Step.purge hrecord hterminal howners
    have hledger : (journal.remove record).ledger =
        ⟨journal.ledger.write record.key none, (journal.remove record).ledger.owner⟩ := by
      unfold ledger Ledger.write
      congr 1
      funext key
      show (journal.records.delete record.key).get? key = _
      rw [OrderedMap.get?_delete]
      simp only [eq_comm]
    rw [← hledger] at hstep
    refine .cons hstep (ih (journal.remove record) ?_ hnodup.2)
    intro other hmem
    have hne : record.key ≠ other.key := fun hc => hnodup.1 (hc ▸ List.mem_map_of_mem hmem)
    obtain ⟨hother, hterminal'⟩ := hpresent other (List.mem_cons_of_mem _ hmem)
    refine ⟨?_, hterminal'⟩
    show (journal.records.delete record.key).get? other.key = some other
    rw [OrderedMap.get?_delete, if_neg hne]
    exact hother

/-! ## Every call -/

/-- Every call is a path of changes that fit it. -/
theorem call_path (operation : ActionOperation) (journal : InMemoryActionJournal) :
    Ends (call ctx authority operation) journal
      (fun answer journal' => ∃ changes, Ledger.Path journal.ledger changes journal'.ledger ∧
        Fits operation (some answer) changes)
      (fun _ journal' => ∃ changes, Ledger.Path journal.ledger changes journal'.ledger ∧
        Fits operation none changes) := by
  have hsame : ∀ journal', journal' = journal → ∃ changes,
      Ledger.Path journal.ledger changes journal'.ledger ∧ changes = [] := by
    rintro journal' rfl
    exact ⟨[], path_nil _, rfl⟩
  cases operation with
  | ensure intent now =>
    rw [call, ends_map]
    refine (ensure_path intent now journal).mono (fun _ _ h => h) (fun _ _ h => ?_)
    obtain ⟨changes, hpath, hnil⟩ := hsame _ h
    exact ⟨changes, hpath, Or.inl hnil⟩
  | get stream operationId =>
    simp only [call, find, ends_map, ends_bind, ends_attempt, ends_get, ends_pure]
    exact ⟨fun _ _ => ⟨fun _ _ => hsame _ rfl, fun _ _ => hsame _ rfl⟩, fun _ _ => hsame _ rfl⟩
  | recoverDelivery stream =>
    simp only [call, recoverDelivery, ends_map, ends_bind, ends_attempt, ends_get, ends_pure]
    exact ⟨fun _ _ => hsame _ rfl, fun _ _ => hsame _ rfl⟩
  | nextDelivery request =>
    rw [call, ends_map]
    exact nextDelivery_path request journal
  | recordReceipt input =>
    rw [call, ends_map]
    refine (recordReceipt_path input journal).mono (fun _ _ h => h) (fun _ _ h => ?_)
    obtain ⟨changes, hpath, hnil⟩ := hsame _ h
    exact ⟨changes, hpath, Or.inl hnil⟩
  | reconcile input =>
    rw [call, ends_map]
    refine (reconcile_path input journal).mono (fun _ _ h => h) (fun _ _ h => ?_)
    exact hsame _ h
  | listGoalProjections request =>
    simp only [call, listGoalProjections, ends_map, ends_bind, ends_attempt, ends_get, ends_pure]
    exact ⟨fun _ _ => ⟨fun _ _ => ⟨fun _ _ => hsame _ rfl, fun _ _ => hsame _ rfl⟩,
      fun _ _ => hsame _ rfl⟩, fun _ _ => hsame _ rfl⟩
  | settleGoalProjection input =>
    rw [call, ends_map]
    refine (settleGoalProjection_path input journal).mono (fun _ _ h => h) (fun _ _ h => ?_)
    obtain ⟨changes, hpath, hnil⟩ := hsame _ h
    exact ⟨changes, hpath, Or.inl hnil⟩
  | purgeTerminal request =>
    simp only [call, purgeTerminal, ends_map, ends_bind, ends_attempt, ends_get, ends_set,
      ends_pure]
    refine ⟨fun _ _ => ?_, fun _ _ => ⟨[], path_nil _, rfl⟩⟩
    obtain ⟨hpresent, hnodup⟩ := purgeCandidates_spec request journal
    exact ⟨_, remove_path _ journal hpresent hnodup, _, rfl, rfl⟩

/-- A stale receipt or reconciliation changes nothing. -/
theorem call_stale (operation : ActionOperation) (journal : InMemoryActionJournal)
    (hstale : journal.ledger.Stale operation) :
    Ends (call ctx authority operation) journal (fun _ journal' => journal' = journal)
      (fun _ journal' => journal' = journal) := by
  cases operation with
  | recordReceipt input =>
    simp only [call, recordReceipt, ends_map, ends_bind]
    refine ends_require (fun record hrecord => ?_) (fun _ => rfl)
    rw [ends_attempt]
    refine ⟨fun transition htransition => ?_, fun _ _ => rfl⟩
    exact absurd (receiptActionRecord_accepts htransition) (hstale record hrecord)
  | reconcile input =>
    simp only [call, reconcile, ends_map, ends_bind]
    refine ends_require (fun record hrecord => ?_) (fun _ => rfl)
    rw [ends_attempt]
    refine ⟨fun transition htransition => ?_, fun _ _ => rfl⟩
    exact absurd (reconcileActionRecord_accepts htransition) (hstale record hrecord)
  | _ => exact hstale.elim

end InMemoryActionJournal

end OpenGameAgent
