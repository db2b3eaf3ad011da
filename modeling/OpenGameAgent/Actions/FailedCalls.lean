import OpenGameAgent.Library.Sweep
import OpenGameAgent.Actions.InMemoryLedger
import OpenGameAgent.Actions.Records

/-!
# Calls that fail on the in-memory journal

Every method but `nextDelivery` writes once and after its last check.  `nextDelivery`
retires, expires and claims records one after another, and a check of a later record may
throw when an earlier one is already written.

* `retires`, `expires` and `dispatches` — the checks of one record in the three loops.
* `FailsLate` — a check throws behind a write: which records of the journal, under which
  request and run authority, lead to that.
* `ends_nextDelivery` — a delivery that throws has changed the journal exactly then.
-/

namespace OpenGameAgent

namespace InMemoryActionJournal

section Checks

variable (ctx : ActionContext) (authority : RunAuthorityCheck) (request : ActionClaimRequest)

/-- The checks of `retireClosedPending` on a pending record: is it retired? -/
def retires (record : ActionRecord) : Except ActionError Bool := do
  if ← isActionRunAuthorityOpen (authority record.coordinate) then return false
  else
    let transition ← retirePendingActionRecord record request.claimedAt
    assertActionRecord ctx transition.record
    assertActionGoalProjectionRecordFits ctx transition.record
    return true

/-- The checks of `expireDueClaims` on a due record: is its claim expired? -/
def expires (record : ActionRecord) : Except ActionError Bool := do
  if ← (if record.replayPolicy = .safe then isActionRunAuthorityOpen (authority record.coordinate)
      else pure false) then return false
  else
    let transition ← expireActionRecord record request.claimedAt
    assertActionGoalProjectionRecordFits ctx transition.record
    return true

/-- The checks of `claimPendingRecord` on a candidate: is it dispatched? -/
def dispatches (journal : InMemoryActionJournal) (replayable : List String)
    (record : ActionRecord) : Except ActionError Bool := do
  if ← isActionRunAuthorityOpen (authority record.coordinate) then
    if !journal.canAcquire record then return false
    else
      let transition ←
        (if replayable.contains record.operationId then reclaimActionRecord record request
        else claimActionRecord record request)
      assertActionRecord ctx transition.record
      assertActionGoalProjectionRecordFits ctx transition.record
      return true
  else return false

end Checks

section Records

variable (request : ActionClaimRequest) (journal : InMemoryActionJournal)

/-- The pending records of the request's stream, in the order of their admission. -/
def pendingRecords : List ActionRecord :=
  journal.records.values.filter fun record =>
    record.inStream request.stream && record.status = .pending

/-- The claims of the request whose lease has run out, as `expireDueClaims` lists them. -/
def dueRecords : List ActionRecord :=
  (journal.records.values.foldl (pushDue request) []).map Prod.fst

/-- The records `claimPendingRecord` looks at once the `retired` ones are gone and those of
`replayable` may be dispatched again. -/
def candidateRecords (retired : List ActionRecord) (replayable : List String) :
    List ActionRecord :=
  journal.records.values.filter fun record =>
    record.inStream request.stream && record.inRun request.runId &&
      ((record.status = .pending && retired.all fun other => other.key ≠ record.key) ||
        replayable.contains record.operationId)

end Records

/-- The journal without the conflict keys of some records. -/
def releaseAll (journal : InMemoryActionJournal) (records : List ActionRecord) :
    InMemoryActionJournal :=
  records.foldl release journal

section FailsLate

variable (ctx : ActionContext) (authority : RunAuthorityCheck)
  (journal : InMemoryActionJournal) (request : ActionClaimRequest)

/-- The first pending records that are to be retired, up to the limit. -/
def retirements : List ActionRecord :=
  ((journal.pendingRecords request).filter (actsOn (retires ctx authority request))).take
    request.candidateLimit

/-- `nextDelivery` throws when it has written a record before. -/
inductive FailsLate : Prop
  /-- Behind a retired record, and before as many are retired as the request allows, there is
  a pending record that can neither be kept nor retired. -/
  | retirement (valid : validateActionClaimRequest request = .ok ())
      {before : List ActionRecord}
      (breaks : BreaksAfter (retires ctx authority request) before
        (journal.pendingRecords request))
      (few : (before.filter (actsOn (retires ctx authority request))).length <
        request.candidateLimit)
      (written : ∃ record ∈ before, retires ctx authority request record = .ok true)
  /-- All retirements succeed; behind a retirement or an expired claim there is a due claim
  that can neither be kept for replay nor expired. -/
  | expiry (valid : validateActionClaimRequest request = .ok ())
      (swept : Survives (retires ctx authority request) request.candidateLimit
        (journal.pendingRecords request))
      {before : List ActionRecord}
      (breaks : BreaksAfter (expires ctx authority request) before (journal.dueRecords request))
      (written : retirements ctx authority journal request ≠ [] ∨
        ∃ record ∈ before, expires ctx authority request record = .ok true)
  /-- All retirements succeed and there are some; every due claim is kept for replay, nothing
  else is unsettled, and among the first candidates one fails its checks before any is
  dispatched. -/
  | dispatch (valid : validateActionClaimRequest request = .ok ())
      (swept : Survives (retires ctx authority request) request.candidateLimit
        (journal.pendingRecords request))
      (written : retirements ctx authority journal request ≠ [])
      (kept : ∀ record ∈ journal.dueRecords request,
        expires ctx authority request record = .ok false)
      (settled : journal.oldestUnsettled request.stream request.runId
        ((journal.dueRecords request).map fun record => record.operationId) = none)
      {before : List ActionRecord}
      (breaks : BreaksAfter
        (dispatches ctx authority request
          (journal.releaseAll (retirements ctx authority journal request))
          ((journal.dueRecords request).map fun record => record.operationId)) before
        (journal.candidateRecords request (retirements ctx authority journal request)
          ((journal.dueRecords request).map fun record => record.operationId)))
      (skipped : ∀ record ∈ before, dispatches ctx authority request
        (journal.releaseAll (retirements ctx authority journal request))
        ((journal.dueRecords request).map fun record => record.operationId) record = .ok false)
      (scanned : before.length < request.candidateLimit)

end FailsLate

/-! ## What the sweeps write -/

/-- The journal once some pending records are retired. -/
def retireAll (journal : InMemoryActionJournal) (now : String) (records : List ActionRecord) :
    InMemoryActionJournal :=
  records.foldl (fun journal record => (journal.release record).put (record.retiredAt now)) journal

/-- The journal once some claims are expired. -/
def expireAll (journal : InMemoryActionJournal) (now : String) (records : List ActionRecord) :
    InMemoryActionJournal :=
  records.foldl (fun journal record => journal.put (record.expiredAt now)) journal

/-- Some records of the journal, each once. -/
structure Holds (journal : InMemoryActionJournal) (records : List ActionRecord) : Prop where
  present : ∀ record ∈ records, journal.records.get? record.key = some record
  nodup : (records.map ActionRecord.key).Nodup

variable {ctx : ActionContext} {authority : RunAuthorityCheck} {request : ActionClaimRequest}
  {journal : InMemoryActionJournal} {records : List ActionRecord}

theorem Holds.sublist {others : List ActionRecord} (h : journal.Holds records)
    (hsub : others.Sublist records) : journal.Holds others :=
  ⟨fun record hmem => h.present record (hsub.subset hmem), (hsub.map _).nodup h.nodup⟩

theorem holds_nil : journal.Holds [] := ⟨by simp, by simp⟩

theorem holds_values (journal : InMemoryActionJournal) : journal.Holds journal.records.values :=
  ⟨fun _ hmem => mem_values_iff.1 hmem, by rw [map_key_values]; exact journal.records.nodup⟩

/-- Writing some records back, each moved, moves them where they stand. -/
theorem records_foldl_put (move : ActionRecord → ActionRecord)
    (base : InMemoryActionJournal → ActionRecord → InMemoryActionJournal)
    (hbase : ∀ journal record, (base journal record).records = journal.records)
    (hkey : ∀ record, (move record).key = record.key) (h : journal.Holds records) :
    (records.foldl (fun journal record => (base journal record).put (move record))
        journal).records =
      journal.records.mapEntries fun key record =>
        if key ∈ records.map ActionRecord.key then move record else record := by
  have hfold : ∀ start : InMemoryActionJournal,
      (records.foldl (fun journal record => (base journal record).put (move record))
        start).records = (records.map fun record => (record.key, record)).foldl
          (fun entries entry => entries.set entry.1 (move entry.2)) start.records := by
    clear h
    induction records with
    | nil => intro start; rfl
    | cons record rest ih =>
      intro start
      rw [List.foldl_cons, ih, List.map_cons, List.foldl_cons]
      show List.foldl _ (((base start record).records).set (move record).key (move record)) _ = _
      rw [hbase, hkey]
  rw [hfold, OrderedMap.foldl_set_eq_mapEntries move]
  · rw [List.map_map]
    rfl
  · intro entry hmem
    obtain ⟨record, hrecord, rfl⟩ := List.mem_map.1 hmem
    exact OrderedMap.get?_eq_some_iff.1 (h.present record hrecord)
  · rw [List.map_map]
    exact h.nodup

theorem records_retireAll (now : String) (h : journal.Holds records) :
    (journal.retireAll now records).records = journal.records.mapEntries fun key record =>
      if key ∈ records.map ActionRecord.key then record.retiredAt now else record :=
  records_foldl_put (fun record => record.retiredAt now) release (fun _ _ => rfl)
    (fun _ => rfl) h

theorem records_expireAll (now : String) (h : journal.Holds records) :
    (journal.expireAll now records).records = journal.records.mapEntries fun key record =>
      if key ∈ records.map ActionRecord.key then record.expiredAt now else record :=
  records_foldl_put (fun record => record.expiredAt now) (fun journal _ => journal)
    (fun _ _ => rfl) (fun _ => rfl) h

/-- Writing records back does not touch the conflict keys. -/
theorem conflicts_retireAll (now : String) (records : List ActionRecord)
    (journal : InMemoryActionJournal) :
    (journal.retireAll now records).conflicts = (journal.releaseAll records).conflicts := by
  have hfold : ∀ start other : InMemoryActionJournal, start.conflicts = other.conflicts →
      (start.retireAll now records).conflicts = (other.releaseAll records).conflicts := by
    induction records with
    | nil => exact fun _ _ h => h
    | cons record rest ih =>
      intro start other h
      refine ih _ _ ?_
      show (start.release record).conflicts = (other.release record).conflicts
      unfold release
      rw [h]
  exact hfold journal journal rfl

/-! ## The retirement sweep -/

/-- The pending records of the request's stream under some keys. -/
def pendingUnder (request : ActionClaimRequest) (journal : InMemoryActionJournal)
    (keys : List ActionKey) : List ActionRecord :=
  (keys.filterMap journal.records.get?).filter fun record =>
    record.inStream request.stream && record.status = .pending

theorem pendingUnder_keys (request : ActionClaimRequest) (journal : InMemoryActionJournal) :
    journal.pendingUnder request journal.records.keys = journal.pendingRecords request := by
  unfold pendingUnder pendingRecords
  rw [OrderedMap.filterMap_get?_keys]

/-- Writing a record leaves the pending records under other keys. -/
theorem pendingUnder_put {base : InMemoryActionJournal} {record : ActionRecord}
    {keys : List ActionKey} (hbase : base.records = journal.records)
    (hkeys : record.key ∉ keys) :
    (base.put record).pendingUnder request keys = journal.pendingUnder request keys := by
  unfold pendingUnder
  congr 1
  refine List.filterMap_congr fun key hmem => ?_
  have hne : record.key ≠ key := fun hc => hkeys (hc ▸ hmem)
  rw [← hbase]
  exact OrderedMap.get?_set_of_ne _ hne _

theorem retireLoop_ends (keys : List ActionKey) (retired : Nat)
    (journal : InMemoryActionJournal) (hnodup : keys.Nodup)
    (hfew : retired < request.candidateLimit) :
    Ends (retireLoop ctx authority request retired keys) journal
      (fun count after =>
        Survives (retires ctx authority request) (request.candidateLimit - retired)
          (journal.pendingUnder request keys) ∧
        ∃ moved, moved = ((journal.pendingUnder request keys).filter
            (actsOn (retires ctx authority request))).take (request.candidateLimit - retired) ∧
          count = retired + moved.length ∧ after = journal.retireAll request.claimedAt moved)
      (fun _ after => ∃ before, BreaksAfter (retires ctx authority request) before
          (journal.pendingUnder request keys) ∧
        (before.filter (actsOn (retires ctx authority request))).length <
          request.candidateLimit - retired ∧
        after = journal.retireAll request.claimedAt
          (before.filter (actsOn (retires ctx authority request)))) := by
  induction keys generalizing retired journal with
  | nil => exact ⟨survives_nil, [], by simp [pendingUnder], rfl, rfl⟩
  | cons key rest ih =>
    rw [List.nodup_cons] at hnodup
    simp only [retireLoop, ends_bind, ends_get]
    split
    · -- No record stands under the key.
      rename_i hnone
      have hpending : journal.pendingUnder request (key :: rest) =
          journal.pendingUnder request rest := by
        unfold pendingUnder
        rw [List.filterMap_cons_none hnone]
      rw [hpending]
      exact ih retired journal hnodup.2 hfew
    · rename_i record hrecord
      have hkey := journal.keyed key record hrecord
      split
      · -- The record is not a pending one of the stream.
        rename_i hskip
        have hpending : journal.pendingUnder request (key :: rest) =
            journal.pendingUnder request rest := by
          unfold pendingUnder
          rw [List.filterMap_cons_some hrecord, List.filter_cons_of_neg]
          simp only [Bool.or_eq_true, Bool.not_eq_true', decide_eq_true_eq] at hskip
          intro hc
          simp only [Bool.and_eq_true, decide_eq_true_eq] at hc
          rcases hskip with hskip | hskip
          · rw [hc.1] at hskip
            cases hskip
          · exact hskip hc.2
        rw [hpending]
        exact ih retired journal hnodup.2 hfew
      · rename_i hlisted
        have hpending : journal.pendingUnder request (key :: rest) =
            record :: journal.pendingUnder request rest := by
          unfold pendingUnder
          rw [List.filterMap_cons_some hrecord, List.filter_cons_of_pos]
          simp only [Bool.or_eq_true, Bool.not_eq_true', decide_eq_true_eq, not_or,
            Bool.not_eq_false, not_not] at hlisted
          simp only [Bool.and_eq_true, decide_eq_true_eq]
          exact hlisted
        have hbreaks : ∀ e, retires ctx authority request record = .error e →
            ∃ before, BreaksAfter (retires ctx authority request) before
                (record :: journal.pendingUnder request rest) ∧
              (before.filter (actsOn (retires ctx authority request))).length <
                request.candidateLimit - retired ∧
              journal = journal.retireAll request.claimedAt
                (before.filter (actsOn (retires ctx authority request))) := by
          intro e he
          refine ⟨[], (breaksAfter_cons_error he).2 rfl, ?_, rfl⟩
          simp only [List.filter_nil, List.length_nil]
          omega
        rw [hpending, ends_bind]
        unfold isRunOpen
        rw [ends_attempt]
        refine ⟨fun isOpen hopen => ?_, fun e he => hbreaks e (by simp [retires, error_bind, he])⟩
        cases isOpen with
        | true =>
          have hkeep : retires ctx authority request record = .ok false := by
            simp [retires, ok_bind, return_eq_ok, hopen]
          have hfilter : ∀ l, (record :: l).filter (actsOn (retires ctx authority request)) =
              l.filter (actsOn (retires ctx authority request)) := by
            intro l
            rw [List.filter_cons_of_neg (by simp [hkeep])]
          rw [if_pos rfl]
          refine (ih retired journal hnodup.2 hfew).mono ?_ ?_
          · rintro count after ⟨hsurvives, moved, hmoved, hcount, hafter⟩
            refine ⟨(survives_cons_false hkeep).2 hsurvives, moved, ?_, hcount, hafter⟩
            rw [hfilter]
            exact hmoved
          · rintro _ after ⟨before, hbefore, hlimit, hafter⟩
            refine ⟨record :: before,
              (breaksAfter_cons_ok hkeep).2 ⟨before, rfl, hbefore⟩, ?_⟩
            rw [hfilter]
            exact ⟨hlimit, hafter⟩
        | false =>
          simp only [Bool.false_eq_true, if_false, ends_bind, ends_attempt, ends_modify]
          refine ⟨fun transition htransition => ⟨fun _ hvalid => ⟨fun _ hfits => ?_,
            fun e he => hbreaks e (by simp [retires, ok_bind, hopen, htransition, hvalid, he])⟩,
            fun e he => hbreaks e (by simp [retires, ok_bind, error_bind, hopen, htransition, he])⟩,
            fun e he => hbreaks e (by simp [retires, ok_bind, error_bind, hopen, he])⟩
          have hretire : retires ctx authority request record = .ok true := by
            simp [retires, ok_bind, hopen, htransition, hvalid, hfits]
          obtain ⟨-, -, -, rfl⟩ := retirePendingActionRecord_eq_ok_iff.1 htransition
          have hfilter : ∀ l, (record :: l).filter (actsOn (retires ctx authority request)) =
              record :: l.filter (actsOn (retires ctx authority request)) := by
            intro l
            rw [List.filter_cons_of_pos (by simp [hretire])]
          obtain ⟨left, hleft⟩ := Nat.exists_eq_add_of_lt hfew
          have hlimit : request.candidateLimit - retired = left + 1 := by omega
          rw [hlimit, hfilter, List.take_succ_cons, survives_cons_true hretire]
          split
          · -- As many are retired as the request allows.
            rename_i hfull
            obtain rfl : left = 0 := by omega
            exact ⟨survives_zero, [record], by simp, rfl, rfl⟩
          · rename_i hmore
            have hsame : pendingUnder request
                ((journal.release record).put (record.retiredAt request.claimedAt)) rest =
                  journal.pendingUnder request rest :=
              pendingUnder_put rfl fun hc => hnodup.1 (hkey ▸ hc)
            have hless : request.candidateLimit - (retired + 1) = left := by omega
            have hloop := ih (retired + 1)
              ((journal.release record).put (record.retiredAt request.claimedAt)) hnodup.2
              (by omega)
            rw [hsame, hless] at hloop
            refine hloop.mono ?_ ?_
            · rintro count after ⟨hsurvives, moved, hmoved, hcount, hafter⟩
              refine ⟨hsurvives, record :: moved, by rw [hmoved], ?_, hafter⟩
              rw [List.length_cons]
              omega
            · rintro _ after ⟨before, hbefore, hlt, hafter⟩
              refine ⟨record :: before,
                (breaksAfter_cons_ok hretire).2 ⟨before, rfl, hbefore⟩, ?_⟩
              rw [hfilter, List.length_cons]
              exact ⟨by omega, hafter⟩

/-! ## The expiry sweep -/

theorem expireLoop_ends (records : List ActionRecord) (replayable : List String)
    (changed : Bool) (journal : InMemoryActionJournal) :
    Ends (expireLoop ctx authority request replayable changed records) journal
      (fun answer after =>
        (∀ record ∈ records, ∃ acts, expires ctx authority request record = .ok acts) ∧
        answer.1 = replayable ++ (records.filter fun record =>
          !actsOn (expires ctx authority request) record).map (fun record => record.operationId) ∧
        after = journal.expireAll request.claimedAt
          (records.filter (actsOn (expires ctx authority request))))
      (fun _ after => ∃ before, BreaksAfter (expires ctx authority request) before records ∧
        after = journal.expireAll request.claimedAt
          (before.filter (actsOn (expires ctx authority request)))) := by
  induction records generalizing replayable changed journal with
  | nil => exact ⟨by simp, by simp, rfl⟩
  | cons record rest ih =>
    have hbreaks : ∀ e, expires ctx authority request record = .error e →
        ∃ before, BreaksAfter (expires ctx authority request) before (record :: rest) ∧
          journal = journal.expireAll request.claimedAt
            (before.filter (actsOn (expires ctx authority request))) := by
      intro e he
      exact ⟨[], (breaksAfter_cons_error he).2 rfl, rfl⟩
    have hcheck : (if record.replayPolicy = .safe then isRunOpen authority record
        else pure false) = attempt (if record.replayPolicy = .safe then
          isActionRunAuthorityOpen (authority record.coordinate) else pure false) := by
      split <;> rfl
    simp only [expireLoop, ends_bind]
    rw [hcheck, ends_attempt]
    refine ⟨fun isOpen hopen => ?_, fun e he => hbreaks e (by rw [expires, he]; rfl)⟩
    cases isOpen with
    | true =>
      have hkeep : expires ctx authority request record = .ok false := by
        rw [expires, hopen]
        rfl
      have hskip : actsOn (expires ctx authority request) record = false := actsOn_of_ok hkeep
      rw [if_pos rfl]
      refine (ih _ changed journal).mono ?_ ?_
      · rintro answer after ⟨hall, hanswer, hafter⟩
        refine ⟨?_, ?_, ?_⟩
        · intro other hmem
          rcases List.mem_cons.1 hmem with rfl | hmem
          · exact ⟨false, hkeep⟩
          · exact hall other hmem
        · rw [hanswer, List.filter_cons_of_pos (by simp [hskip])]
          simp
        · rw [List.filter_cons_of_neg (by simp [hskip])]
          exact hafter
      · rintro _ after ⟨before, hbefore, hafter⟩
        refine ⟨record :: before, (breaksAfter_cons_ok hkeep).2 ⟨before, rfl, hbefore⟩, ?_⟩
        rw [List.filter_cons_of_neg (by simp [hskip])]
        exact hafter
    | false =>
      simp only [Bool.false_eq_true, if_false, ends_bind, ends_attempt]
      refine ⟨fun transition htransition => ⟨fun _ hfits => ?_, fun e he => hbreaks e ?_⟩,
        fun e he => hbreaks e ?_⟩
      · have hexpire : expires ctx authority request record = .ok true := by
          rw [expires, hopen]
          simp [ok_bind, htransition, hfits]
        have hact : actsOn (expires ctx authority request) record = true :=
          actsOn_of_ok hexpire
        obtain ⟨-, -, -, rfl⟩ := expireActionRecord_eq_ok_iff.1 htransition
        simp only [Bool.false_eq_true, if_false]
        refine (ih replayable true (journal.put (record.expiredAt request.claimedAt))).mono
          ?_ ?_
        · rintro answer after ⟨hall, hanswer, hafter⟩
          refine ⟨?_, ?_, ?_⟩
          · intro other hmem
            rcases List.mem_cons.1 hmem with rfl | hmem
            · exact ⟨true, hexpire⟩
            · exact hall other hmem
          · rw [hanswer, List.filter_cons_of_neg (by simp [hact])]
          · rw [List.filter_cons_of_pos hact]
            exact hafter
        · rintro _ after ⟨before, hbefore, hafter⟩
          refine ⟨record :: before,
            (breaksAfter_cons_ok hexpire).2 ⟨before, rfl, hbefore⟩, ?_⟩
          rw [List.filter_cons_of_pos hact]
          exact hafter
      · rw [expires, hopen]
        simp [ok_bind, htransition, he]
      · rw [expires, hopen]
        simp [ok_bind, error_bind, he]

/-! ## The dispatch scan -/

/-- The records that may be dispatched among those under some keys. -/
def candidatesUnder (request : ActionClaimRequest) (replayable : List String)
    (journal : InMemoryActionJournal) (keys : List ActionKey) : List ActionRecord :=
  (keys.filterMap journal.records.get?).filter fun record =>
    record.inStream request.stream && record.inRun request.runId &&
      (record.status = .pending || replayable.contains record.operationId)

theorem claimLoop_ends (replayable : List String) (keys : List ActionKey) (scanned : Nat)
    (journal : InMemoryActionJournal) :
    Ends (claimLoop ctx authority request replayable scanned keys) journal
      (fun _ _ => ∀ before, BreaksAfter (dispatches ctx authority request journal replayable)
          before (journal.candidatesUnder request replayable keys) →
        (∀ record ∈ before,
          dispatches ctx authority request journal replayable record = .ok false) →
        request.candidateLimit ≤ scanned + before.length)
      (fun _ after => after = journal ∧ ∃ before,
        BreaksAfter (dispatches ctx authority request journal replayable) before
          (journal.candidatesUnder request replayable keys) ∧
        (∀ record ∈ before,
          dispatches ctx authority request journal replayable record = .ok false) ∧
        scanned + before.length < request.candidateLimit) := by
  induction keys generalizing scanned with
  | nil => exact fun before h => absurd h not_breaksAfter_nil
  | cons key rest ih =>
    simp only [claimLoop, ends_bind, ends_get]
    split
    · rename_i hnone
      have hcandidates : journal.candidatesUnder request replayable (key :: rest) =
          journal.candidatesUnder request replayable rest := by
        unfold candidatesUnder
        rw [List.filterMap_cons_none hnone]
      rw [hcandidates]
      exact ih scanned
    · rename_i record hrecord
      split
      · rename_i hskip
        have hcandidates : journal.candidatesUnder request replayable (key :: rest) =
            journal.candidatesUnder request replayable rest := by
          unfold candidatesUnder
          rw [List.filterMap_cons_some hrecord, List.filter_cons_of_neg]
          revert hskip
          cases record.inStream request.stream <;> cases record.inRun request.runId <;>
            cases replayable.contains record.operationId <;> simp
        rw [hcandidates]
        exact ih scanned
      · rename_i hlisted
        have hcandidates : journal.candidatesUnder request replayable (key :: rest) =
            record :: journal.candidatesUnder request replayable rest := by
          unfold candidatesUnder
          rw [List.filterMap_cons_some hrecord, List.filter_cons_of_pos]
          revert hlisted
          cases record.inStream request.stream <;> cases record.inRun request.runId <;>
            cases replayable.contains record.operationId <;> simp
        rw [hcandidates]
        split
        · -- The candidates that may be scanned are used up.
          rename_i hfull
          intro before _ _
          omega
        · rename_i hmore
          have hbreaks : ∀ e, dispatches ctx authority request journal replayable record =
              .error e → ∃ before,
              BreaksAfter (dispatches ctx authority request journal replayable) before
                (record :: journal.candidatesUnder request replayable rest) ∧
              (∀ record ∈ before,
                dispatches ctx authority request journal replayable record = .ok false) ∧
              scanned + before.length < request.candidateLimit := by
            intro e he
            refine ⟨[], (breaksAfter_cons_error he).2 rfl, by simp, ?_⟩
            rw [List.length_nil]
            omega
          have hnext : dispatches ctx authority request journal replayable record = .ok false →
              Ends (claimLoop ctx authority request replayable (scanned + 1) rest) journal
                (fun _ _ => ∀ before,
                  BreaksAfter (dispatches ctx authority request journal replayable) before
                    (record :: journal.candidatesUnder request replayable rest) →
                  (∀ record ∈ before,
                    dispatches ctx authority request journal replayable record = .ok false) →
                  request.candidateLimit ≤ scanned + before.length)
                (fun _ after => after = journal ∧ ∃ before,
                  BreaksAfter (dispatches ctx authority request journal replayable) before
                    (record :: journal.candidatesUnder request replayable rest) ∧
                  (∀ record ∈ before,
                    dispatches ctx authority request journal replayable record = .ok false) ∧
                  scanned + before.length < request.candidateLimit) := by
            intro hskip
            refine (ih (scanned + 1)).mono ?_ ?_
            · intro _ _ hnone before hbefore hall
              obtain ⟨others, rfl, hothers⟩ := (breaksAfter_cons_ok hskip).1 hbefore
              have hscanned := hnone others hothers fun other hmem =>
                hall other (List.mem_cons_of_mem _ hmem)
              rw [List.length_cons]
              omega
            · rintro _ after ⟨hafter, before, hbefore, hall, hscanned⟩
              refine ⟨hafter, record :: before,
                (breaksAfter_cons_ok hskip).2 ⟨before, rfl, hbefore⟩, ?_, ?_⟩
              · intro other hmem
                rcases List.mem_cons.1 hmem with rfl | hmem
                · exact hskip
                · exact hall other hmem
              · rw [List.length_cons]
                omega
          rw [ends_bind]
          unfold isRunOpen
          rw [ends_attempt]
          refine ⟨fun isOpen hopen => ?_, fun e he => ⟨rfl, hbreaks e (by
            simp [dispatches, error_bind, he])⟩⟩
          cases isOpen with
          | false =>
            simp only [Bool.false_eq_true, if_false]
            exact hnext (by simp [dispatches, ok_bind, return_eq_ok, hopen])
          | true =>
            simp only [if_true]
            split
            · rename_i hheld
              rw [Bool.not_eq_true'] at hheld
              exact hnext (by simp [dispatches, hopen, hheld])
            · rename_i hfree
              rw [Bool.not_eq_true', Bool.not_eq_false] at hfree
              have hchecks : dispatches ctx authority request journal replayable record = (do
                  let transition ←
                    (if replayable.contains record.operationId then
                      reclaimActionRecord record request
                    else claimActionRecord record request)
                  assertActionRecord ctx transition.record
                  assertActionGoalProjectionRecordFits ctx transition.record
                  return true) := by
                simp only [dispatches, hopen, hfree, ok_bind, Bool.not_true,
                  Bool.false_eq_true, if_true, if_false]
              simp only [ends_bind, ends_attempt]
              refine ⟨fun transition htransition => ⟨fun _ hvalid => ⟨fun _ hfits => ?_,
                fun e he => ⟨trivial, hbreaks e ?_⟩⟩, fun e he => ⟨trivial, hbreaks e ?_⟩⟩,
                fun e he => ⟨trivial, hbreaks e ?_⟩⟩
              · have hdispatch : dispatches ctx authority request journal replayable record =
                    .ok true := by
                  rw [hchecks, htransition]
                  simp [ok_bind, hvalid, hfits]
                have hnone : ∀ before,
                    BreaksAfter (dispatches ctx authority request journal replayable) before
                      (record :: journal.candidatesUnder request replayable rest) →
                    (∀ record ∈ before,
                      dispatches ctx authority request journal replayable record =
                        .ok false) →
                    request.candidateLimit ≤ scanned + before.length := by
                  intro before hbefore hall
                  obtain ⟨others, rfl, -⟩ := (breaksAfter_cons_ok hdispatch).1 hbefore
                  have hskip := hall record (List.mem_cons_self ..)
                  rw [hdispatch] at hskip
                  cases hskip
                split <;> exact hnone
              · rw [hchecks, htransition]
                simp [ok_bind, hvalid, he]
              · rw [hchecks, htransition]
                simp [ok_bind, error_bind, he]
              · rw [hchecks, he]
                rfl

/-! ## The records behind the retirement sweep -/

theorem pendingRecords_sublist (request : ActionClaimRequest) (journal : InMemoryActionJournal) :
    (journal.pendingRecords request).Sublist journal.records.values := List.filter_sublist

theorem retirements_sublist :
    (retirements ctx authority journal request).Sublist (journal.pendingRecords request) :=
  (List.take_sublist _ _).trans List.filter_sublist

theorem holds_retirements : journal.Holds (retirements ctx authority journal request) :=
  (holds_values journal).sublist (retirements_sublist.trans (pendingRecords_sublist _ _))

/-- A record of the journal that shares its key with one of some others is that one. -/
theorem Holds.mem_of_key (h : journal.Holds records) {record : ActionRecord}
    (hpresent : journal.records.get? record.key = some record)
    (hkey : record.key ∈ records.map ActionRecord.key) : record ∈ records := by
  obtain ⟨other, hmem, hsame⟩ := List.mem_map.1 hkey
  have hother := h.present other hmem
  rw [hsame, hpresent, Option.some.injEq] at hother
  exact hother ▸ hmem

/-- Moving some records where they stand moves them in the list of all records. -/
theorem values_moveAll {after : InMemoryActionJournal} (move : ActionRecord → ActionRecord)
    (h : after.records = journal.records.mapEntries fun key record =>
      if key ∈ records.map ActionRecord.key then move record else record) :
    after.records.values = journal.records.values.map fun record =>
      if record.key ∈ records.map ActionRecord.key then move record else record := by
  rw [h, OrderedMap.values_mapEntries]
  unfold OrderedMap.values
  rw [List.map_map]
  refine List.map_congr_left fun entry hmem => ?_
  have hkey := journal.keyed entry.1 entry.2 (OrderedMap.get?_eq_some_iff.2 hmem)
  simp only [Function.comp_apply, hkey]

theorem pending_of_mem_pendingRecords {record : ActionRecord}
    (h : record ∈ journal.pendingRecords request) :
    record.inStream request.stream = true ∧ record.status = .pending := by
  have hmem := (List.mem_filter.1 h).2
  simpa using hmem

/-- Retiring pending records leaves the due claims. -/
theorem dueRecords_retireAll (h : journal.Holds records)
    (hpending : ∀ record ∈ records, record.status = .pending) (now : String) :
    (journal.retireAll now records).dueRecords request = journal.dueRecords request := by
  unfold dueRecords
  rw [foldl_pushDue, foldl_pushDue, values_moveAll _ (records_retireAll now h)]
  congr 3
  unfold dueEntries
  rw [List.filterMap_map]
  refine List.filterMap_congr fun record hmem => ?_
  rw [Function.comp_apply]
  split
  · rename_i hkey
    have hstatus := hpending record (h.mem_of_key (mem_values_iff.1 hmem) hkey)
    have hold : record.dueFor request = false := by simp [ActionRecord.dueFor, hstatus]
    have hnew : (record.retiredAt now).dueFor request = false := by
      simp [ActionRecord.dueFor, ActionRecord.retiredAt]
    rw [hold, hnew]
    rfl
  · rfl

/-- Retiring pending records settles nothing that was unsettled. -/
theorem oldestUnsettled_retireAll (h : journal.Holds records)
    (hpending : ∀ record ∈ records, record.status = .pending) (now : String) (stream : StreamKey)
    (runId : Option String) (replayable : List String) :
    (journal.retireAll now records).oldestUnsettled stream runId replayable = none ↔
      journal.oldestUnsettled stream runId replayable = none := by
  unfold oldestUnsettled
  rw [List.find?_eq_none, List.find?_eq_none, values_moveAll _ (records_retireAll now h)]
  simp only [List.mem_map, forall_exists_index, and_imp, forall_apply_eq_imp_iff₂]
  refine forall₂_congr fun record hmem => ?_
  split
  · rename_i hkey
    have hstatus := hpending record
      (h.mem_of_key (mem_values_iff.1 hmem) (List.mem_map.2 hkey))
    simp [hstatus, ActionRecord.retiredAt, ActionStatus.unsettled]
  · rfl

/-- Which record `claimPendingRecord` looks at depends on the conflict keys alone. -/
theorem dispatches_congr {other : InMemoryActionJournal} (h : journal.conflicts = other.conflicts)
    (replayable : List String) :
    dispatches ctx authority request journal replayable =
      dispatches ctx authority request other replayable := by
  funext record
  unfold dispatches canAcquire
  rw [h]

theorem mem_dueRecords {record : ActionRecord} (h : record ∈ journal.dueRecords request) :
    journal.records.get? record.key = some record ∧ record.dueFor request = true := by
  unfold dueRecords at h
  rw [foldl_pushDue] at h
  obtain ⟨entry, hentry, rfl⟩ := List.mem_map.1 h
  have hdue := (List.mem_insertionSort _).1 (List.mem_of_mem_take hentry)
  refine ⟨mem_values_iff.1 (mem_dueEntries hdue), ?_⟩
  unfold dueEntries at hdue
  obtain ⟨record, -, hrecord⟩ := List.mem_filterMap.1 hdue
  split at hrecord
  · rename_i hdueFor
    obtain ⟨claim, -, rfl⟩ := Option.map_eq_some_iff.1 hrecord
    exact hdueFor
  · cases hrecord

theorem dueFor_iff {record : ActionRecord} : record.dueFor request = true ↔
    record.inStream request.stream = true ∧ record.inRun request.runId = true ∧
      record.status = .claimed ∧ record.Due request.claimedAt := by
  unfold ActionRecord.dueFor
  simp only [Bool.and_eq_true, decide_eq_true_eq, due_iff, and_assoc]

/-- Two records of one stream with one operation id are one. -/
theorem eq_of_operationId {stream : StreamKey} {a b : ActionRecord}
    (ha : journal.records.get? a.key = some a) (hb : journal.records.get? b.key = some b)
    (hastream : a.inStream stream = true) (hbstream : b.inStream stream = true)
    (hid : a.operationId = b.operationId) : a = b := by
  unfold PreparedActionIntent.inStream at hastream hbstream
  simp only [Bool.and_eq_true, decide_eq_true_eq] at hastream hbstream
  have hkey : a.key = b.key := by
    simp only [PreparedActionIntent.key, hid, hastream.1, hastream.2, hbstream.1, hbstream.2]
  rw [hkey, hb, Option.some.injEq] at ha
  exact ha.symm

/-- Once the closed runs are retired, `claimPendingRecord` looks at the records that are
left. -/
theorem candidatesUnder_retireAll (h : journal.Holds records)
    (hpending : ∀ record ∈ records, record.inStream request.stream = true ∧
      record.status = .pending) (now : String) :
    (journal.retireAll now records).candidatesUnder request
        ((journal.dueRecords request).map fun record => record.operationId)
        (journal.retireAll now records).records.keys =
      journal.candidateRecords request records
        ((journal.dueRecords request).map fun record => record.operationId) := by
  have hnot : ∀ record ∈ records,
      ((journal.dueRecords request).map fun record => record.operationId).contains
        record.operationId = false := by
    intro record hmem
    rw [← Bool.not_eq_true, List.contains_iff_mem]
    intro hc
    obtain ⟨due, hdue, hid⟩ := List.mem_map.1 hc
    obtain ⟨hpresent, hdueFor⟩ := mem_dueRecords hdue
    obtain ⟨hstream, -, hclaimed, -⟩ := dueFor_iff.1 hdueFor
    have heq := eq_of_operationId hpresent (h.present record hmem) hstream
      (hpending record hmem).1 hid
    rw [heq, (hpending record hmem).2] at hclaimed
    cases hclaimed
  unfold candidatesUnder candidateRecords
  rw [OrderedMap.filterMap_get?_keys, values_moveAll _ (records_retireAll now h), List.filter_map]
  generalize ((journal.dueRecords request).map fun record => record.operationId) = replayable
    at hnot
  have hfilter : ∀ record ∈ journal.records.values,
      ((fun record : ActionRecord => record.inStream request.stream &&
          record.inRun request.runId &&
          (record.status = .pending || replayable.contains record.operationId)) ∘
        fun record => if record.key ∈ records.map ActionRecord.key then record.retiredAt now
          else record) record =
      (record.inStream request.stream && record.inRun request.runId &&
        ((record.status = .pending && records.all fun other => other.key ≠ record.key) ||
          replayable.contains record.operationId)) := by
    intro record hmem
    rw [Function.comp_apply]
    by_cases hkey : record.key ∈ records.map ActionRecord.key
    · have hin := h.mem_of_key (mem_values_iff.1 hmem) hkey
      have hall : (records.all fun other => other.key ≠ record.key) = false := by
        rw [List.all_eq_false]
        exact ⟨record, hin, by simp⟩
      have hunlisted : record.operationId ∉ replayable := by
        simpa using hnot record hin
      rw [if_pos hkey, hnot record hin, hall]
      simp [ActionRecord.retiredAt, hunlisted]
    · have hall : (records.all fun other => other.key ≠ record.key) = true := by
        rw [List.all_eq_true]
        intro other hother
        rw [decide_eq_true_eq]
        intro hc
        exact hkey (hc ▸ List.mem_map_of_mem hother)
      rw [if_neg hkey, hall, Bool.and_true]
  rw [List.filter_congr hfilter]
  refine (List.map_congr_left fun record hmem => ?_).trans (List.map_id _)
  obtain ⟨hmem, hkept⟩ := List.mem_filter.1 hmem
  by_cases hkey : record.key ∈ records.map ActionRecord.key
  · exfalso
    have hin := h.mem_of_key (mem_values_iff.1 hmem) hkey
    have hall : (records.all fun other => other.key ≠ record.key) = false := by
      rw [List.all_eq_false]
      exact ⟨record, hin, by simp⟩
    rw [hall, hnot record hin] at hkept
    simp at hkept
  · rw [if_neg hkey]
    rfl

/-- Moving some records to another status changes the journal. -/
theorem moveAll_ne {after : InMemoryActionJournal} (move : ActionRecord → ActionRecord)
    (h : journal.Holds records)
    (hafter : after.records = journal.records.mapEntries fun key record =>
      if key ∈ records.map ActionRecord.key then move record else record)
    (hstatus : ∀ record ∈ records, (move record).status ≠ record.status) (hsome : records ≠ []) :
    ∃ record ∈ records, after.records.get? record.key = some (move record) ∧
      after.records.get? record.key ≠ journal.records.get? record.key := by
  obtain ⟨record, hmem⟩ := List.exists_mem_of_ne_nil records hsome
  have hget : after.records.get? record.key = some (move record) := by
    rw [hafter, OrderedMap.get?_mapEntries, h.present record hmem, Option.map_some,
      if_pos (List.mem_map_of_mem hmem)]
  refine ⟨record, hmem, hget, ?_⟩
  rw [hget, h.present record hmem]
  intro hc
  exact hstatus record hmem (congrArg ActionRecord.status (Option.some.inj hc))

theorem holds_dueRecords : journal.Holds (journal.dueRecords request) := by
  refine ⟨fun record hmem => (mem_dueRecords hmem).1, ?_⟩
  unfold dueRecords
  rw [foldl_pushDue, List.map_map]
  have hperm := (List.perm_insertionSort (fun left right : ActionRecord × String =>
    left.2 ≤ right.2) (dueEntries request journal.records.values)).map
      fun entry : ActionRecord × String => entry.1.key
  have hsub := (dueEntries_sublist request journal.records.values).map ActionRecord.key
  rw [List.map_map] at hsub
  refine ((List.take_sublist _ _).map _).nodup (hperm.nodup_iff.2 (hsub.nodup ?_))
  rw [map_key_values]
  exact journal.records.nodup

section Sweeps

variable {retired expired : List ActionRecord} (hretired : journal.Holds retired)
  (hpending : ∀ record ∈ retired, record.status = .pending) (hexpired : journal.Holds expired)
  (hclaimed : ∀ record ∈ expired, record.status = .claimed) (now : String)

include hretired hpending hexpired hclaimed

theorem claimed_apart :
    ∀ record ∈ expired, record.key ∉ retired.map ActionRecord.key := by
  intro record hmem hkey
  have hin := hretired.mem_of_key (hexpired.present record hmem) hkey
  have hstatus := hpending record hin
  rw [hclaimed record hmem] at hstatus
  cases hstatus

/-- Retiring the pending records leaves the claimed ones. -/
theorem get?_retireAll_claimed :
    ∀ record ∈ expired, (journal.retireAll now retired).records.get? record.key =
      journal.records.get? record.key := by
  intro record hmem
  have hkey := claimed_apart hretired hpending hexpired hclaimed record hmem
  rw [records_retireAll now hretired, OrderedMap.get?_mapEntries]
  simp only [if_neg hkey]
  exact Option.map_id'

theorem holds_retireAll : (journal.retireAll now retired).Holds expired where
  present record hmem :=
    (get?_retireAll_claimed hretired hpending hexpired hclaimed now record hmem).trans
      (hexpired.present record hmem)
  nodup := hexpired.nodup

/-- The sweeps change the journal unless they retire and expire nothing. -/
theorem sweep_ne_iff :
    (journal.retireAll now retired).expireAll now expired ≠ journal ↔
      retired ≠ [] ∨ expired ≠ [] := by
  have hholds := holds_retireAll hretired hpending hexpired hclaimed now
  have hrecords := records_expireAll now hholds
  constructor
  · intro hne
    by_contra hc
    rw [not_or, not_not, not_not] at hc
    obtain ⟨rfl, rfl⟩ := hc
    exact hne rfl
  · rintro hsome hsame
    rcases hsome with hsome | hsome
    · obtain ⟨record, hmem, hmoved, hne⟩ := moveAll_ne (fun record => record.retiredAt now)
        hretired (records_retireAll now hretired) (by
          intro record hmem
          rw [hpending record hmem]
          nofun) hsome
      have hkey : record.key ∉ expired.map ActionRecord.key := by
        intro hc
        obtain ⟨other, hother, heq⟩ := List.mem_map.1 hc
        exact claimed_apart hretired hpending hexpired hclaimed other hother
          (heq ▸ List.mem_map_of_mem hmem)
      have hlast : ((journal.retireAll now retired).expireAll now expired).records.get?
          record.key = some (record.retiredAt now) := by
        rw [hrecords, OrderedMap.get?_mapEntries, hmoved, Option.map_some, if_neg hkey]
      rw [hsame] at hlast
      exact hne (hmoved.trans hlast.symm)
    · obtain ⟨record, hmem, hmoved, hne⟩ := moveAll_ne (fun record => record.expiredAt now)
        hholds hrecords (by
          intro record hmem
          rw [hclaimed record hmem]
          nofun) hsome
      rw [hsame, get?_retireAll_claimed hretired hpending hexpired hclaimed now record hmem] at hne
      exact hne rfl

end Sweeps

/-- A claim that expired is unsettled and is not dispatched again. -/
theorem oldestUnsettled_expireAll {retired : List ActionRecord} (hretired : journal.Holds retired)
    (hpending : ∀ record ∈ retired, record.status = .pending) (judge : ActionRecord → Bool)
    (now : String)
    (hnone : ((journal.retireAll now retired).expireAll now
        ((journal.dueRecords request).filter judge)).oldestUnsettled request.stream request.runId
          (((journal.dueRecords request).filter fun record => !judge record).map
            fun record => record.operationId) = none) :
    (journal.dueRecords request).filter judge = [] := by
  by_contra hsome
  obtain ⟨record, hmem⟩ := List.exists_mem_of_ne_nil _ hsome
  have hexpired : journal.Holds ((journal.dueRecords request).filter judge) :=
    holds_dueRecords.sublist List.filter_sublist
  have hclaimed : ∀ record ∈ (journal.dueRecords request).filter judge,
      record.status = .claimed := by
    intro record hmem
    exact (dueFor_iff.1 (mem_dueRecords (List.mem_filter.1 hmem).1).2).2.2.1
  have hholds := holds_retireAll hretired hpending hexpired hclaimed now
  have hget : ((journal.retireAll now retired).expireAll now
      ((journal.dueRecords request).filter judge)).records.get? record.key =
        some (record.expiredAt now) := by
    rw [records_expireAll now hholds, OrderedMap.get?_mapEntries, hholds.present record hmem,
      Option.map_some, if_pos (List.mem_map_of_mem hmem)]
  unfold oldestUnsettled at hnone
  have hvalue := List.find?_eq_none.1 hnone _ (OrderedMap.mem_values.2 ⟨_, hget⟩)
  obtain ⟨hdue, hacts⟩ := List.mem_filter.1 hmem
  obtain ⟨hpresent, hdueFor⟩ := mem_dueRecords hdue
  obtain ⟨hstream, hrun, -, -⟩ := dueFor_iff.1 hdueFor
  apply hvalue
  have hunlisted : (((journal.dueRecords request).filter fun record => !judge record).map
      fun record => record.operationId).contains record.operationId = false := by
    rw [← Bool.not_eq_true, List.contains_iff_mem]
    intro hc
    obtain ⟨other, hother, hid⟩ := List.mem_map.1 hc
    obtain ⟨hdue', hkept⟩ := List.mem_filter.1 hother
    obtain ⟨hpresent', hdueFor'⟩ := mem_dueRecords hdue'
    have heq := eq_of_operationId hpresent' hpresent (dueFor_iff.1 hdueFor').1 hstream hid
    rw [heq, hacts] at hkept
    cases hkept
  have hunlisted' : (((journal.dueRecords request).filter fun record => !judge record).map
      fun record => record.operationId).contains (record.expiredAt now).operationId = false :=
    hunlisted
  have hstream' : (record.expiredAt now).inStream request.stream = true := hstream
  have hrun' : (record.expiredAt now).inRun request.runId = true := hrun
  rw [hunlisted', hstream', hrun']
  rfl

/-! ## Deliveries -/

theorem FailsLate.valid (h : FailsLate ctx authority journal request) :
    validateActionClaimRequest request = .ok () := by
  cases h with
  | retirement valid => exact valid
  | expiry valid => exact valid
  | dispatch valid => exact valid

/-- A retirement sweep that survives rules the first way to fail late out. -/
theorem not_breaks_of_survives {before : List ActionRecord}
    (hswept : Survives (retires ctx authority request) request.candidateLimit
      (journal.pendingRecords request))
    (hbreaks : BreaksAfter (retires ctx authority request) before
      (journal.pendingRecords request)) :
    ¬ (before.filter (actsOn (retires ctx authority request))).length <
      request.candidateLimit :=
  not_lt.2 (hswept before hbreaks)

theorem pending_of_sublist (h : records.Sublist (journal.pendingRecords request)) :
    ∀ record ∈ records, record.inStream request.stream = true ∧ record.status = .pending :=
  fun _ hmem => pending_of_mem_pendingRecords (h.subset hmem)

theorem claimed_of_sublist (h : records.Sublist (journal.dueRecords request)) :
    ∀ record ∈ records, record.status = .claimed := fun _ hmem =>
  (dueFor_iff.1 (mem_dueRecords (h.subset hmem)).2).2.2.1

/-- The first sweep retires the retirements, or fails late if it throws behind one. -/
theorem ends_retireClosedPending (hvalid : validateActionClaimRequest request = .ok ()) :
    Ends (retireClosedPending ctx authority request) journal
      (fun _ after => Survives (retires ctx authority request) request.candidateLimit
          (journal.pendingRecords request) ∧
        after = journal.retireAll request.claimedAt (retirements ctx authority journal request))
      (fun _ after => after ≠ journal ↔ FailsLate ctx authority journal request) := by
  have hsweep := @retireLoop_ends ctx authority request
    journal.records.keys 0 journal journal.records.nodup
    (validateActionClaimRequest_valid hvalid).candidateLimit
  rw [Nat.sub_zero, pendingUnder_keys] at hsweep
  simp only [retireClosedPending, ends_bind, ends_get]
  refine hsweep.mono ?_ ?_
  · rintro retired after ⟨hswept, moved, rfl, -, rfl⟩
    exact ⟨hswept, rfl⟩
  · -- A pending record can neither be kept nor retired.
    rintro _ after ⟨before, hbreaks, hfew, rfl⟩
    have hsub := hbreaks.acted_sublist
    have hne := sweep_ne_iff ((holds_values journal).sublist
      (hsub.trans (pendingRecords_sublist _ _))) (fun record hmem =>
        (pending_of_sublist hsub record hmem).2) holds_nil (by simp)
      request.claimedAt
    refine hne.trans ((or_iff_left (by simp)).trans (acted_ne_nil_iff.trans ⟨fun hwritten =>
      .retirement hvalid hbreaks hfew hwritten, fun hlate => ?_⟩))
    cases hlate with
    | retirement _ hbreaks' _ hwritten =>
      rw [hbreaks.unique hbreaks']
      exact hwritten
    | expiry _ hswept => exact absurd hfew (not_breaks_of_survives hswept hbreaks)
    | dispatch _ hswept => exact absurd hfew (not_breaks_of_survives hswept hbreaks)

theorem pending_of_mem_retirements :
    ∀ record ∈ retirements ctx authority journal request,
      record.inStream request.stream = true ∧ record.status = .pending :=
  pending_of_sublist retirements_sublist

/-- The second sweep expires the due claims that are not kept for replay, or fails late if it
throws behind a retirement or an expired claim. -/
theorem ends_expireDueClaims (hvalid : validateActionClaimRequest request = .ok ())
    (hswept : Survives (retires ctx authority request) request.candidateLimit
      (journal.pendingRecords request)) :
    Ends (expireDueClaims ctx authority request)
      (journal.retireAll request.claimedAt (retirements ctx authority journal request))
      (fun answer after =>
        (∀ record ∈ journal.dueRecords request,
          ∃ acts, expires ctx authority request record = .ok acts) ∧
        answer.1 = ((journal.dueRecords request).filter fun record =>
          !actsOn (expires ctx authority request) record).map (fun record => record.operationId) ∧
        after = (journal.retireAll request.claimedAt
            (retirements ctx authority journal request)).expireAll request.claimedAt
          ((journal.dueRecords request).filter (actsOn (expires ctx authority request))))
      (fun _ after => after ≠ journal ↔ FailsLate ctx authority journal request) := by
  have hholds : journal.Holds (retirements ctx authority journal request) := holds_retirements
  have hpending : ∀ record ∈ retirements ctx authority journal request,
      record.status = .pending := fun record hmem => (pending_of_mem_retirements record hmem).2
  have hexpiry := @expireLoop_ends ctx authority request
    (journal.dueRecords request) [] false
    (journal.retireAll request.claimedAt (retirements ctx authority journal request))
  have hsame : ((journal.retireAll request.claimedAt
      (retirements ctx authority journal request)).records.values.foldl (pushDue request)
        []).map Prod.fst = journal.dueRecords request :=
    dueRecords_retireAll hholds hpending request.claimedAt
  simp only [expireDueClaims, ends_bind, ends_get]
  rw [hsame]
  refine hexpiry.mono ?_ ?_
  · rintro answer after ⟨hall, hreplayable, hafter⟩
    exact ⟨hall, hreplayable, hafter⟩
  · -- A due claim can neither be kept for replay nor expired.
    rintro _ after ⟨before, hbreaks, rfl⟩
    have hsub := hbreaks.acted_sublist
    have hne := sweep_ne_iff hholds hpending (holds_dueRecords.sublist hsub)
      (claimed_of_sublist hsub) request.claimedAt
    refine hne.trans ((or_congr_right acted_ne_nil_iff).trans ⟨fun hwritten =>
      .expiry hvalid hswept hbreaks hwritten, fun hlate => ?_⟩)
    cases hlate with
    | retirement _ hbreaks' hfew => exact absurd hfew (not_breaks_of_survives hswept hbreaks')
    | expiry _ _ hbreaks' hwritten =>
      rw [hbreaks.unique hbreaks']
      exact hwritten
    | dispatch _ _ _ hkept =>
      exact absurd (fun record hmem => ⟨false, hkept record hmem⟩) hbreaks.not_all

/-- The scan for work writes last, so it fails late if it throws behind a retirement. -/
theorem ends_claimPendingRecord (hvalid : validateActionClaimRequest request = .ok ())
    (hswept : Survives (retires ctx authority request) request.candidateLimit
      (journal.pendingRecords request))
    (hkept : ∀ record ∈ journal.dueRecords request,
      expires ctx authority request record = .ok false)
    (hsettled : journal.oldestUnsettled request.stream request.runId
      ((journal.dueRecords request).map fun record => record.operationId) = none) :
    Ends (claimPendingRecord ctx authority request
        ((journal.dueRecords request).map fun record => record.operationId))
      (journal.retireAll request.claimedAt (retirements ctx authority journal request))
      (fun _ _ => ¬ FailsLate ctx authority journal request)
      (fun _ after => after ≠ journal ↔ FailsLate ctx authority journal request) := by
  have hholds : journal.Holds (retirements ctx authority journal request) := holds_retirements
  have hall : ∀ record ∈ journal.dueRecords request,
      ∃ acts, expires ctx authority request record = .ok acts := fun record hmem =>
    ⟨false, hkept record hmem⟩
  have hscan := @claimLoop_ends ctx authority request
    ((journal.dueRecords request).map fun record => record.operationId)
    (journal.retireAll request.claimedAt
      (retirements ctx authority journal request)).records.keys 0
    (journal.retireAll request.claimedAt (retirements ctx authority journal request))
  rw [candidatesUnder_retireAll hholds pending_of_mem_retirements,
    dispatches_congr (conflicts_retireAll request.claimedAt _ journal)] at hscan
  simp only [claimPendingRecord, ends_bind, ends_get]
  refine hscan.mono ?_ ?_
  · intro claimed _ hnone hlate
    cases hlate with
    | retirement _ hbreaks hfew => exact absurd hfew (not_breaks_of_survives hswept hbreaks)
    | expiry _ _ hbreaks => exact absurd hall hbreaks.not_all
    | dispatch _ _ _ _ _ hbreaks hskipped hscanned =>
      have hfull := hnone _ hbreaks hskipped
      omega
  · rintro _ after ⟨rfl, before, hbreaks, hskipped, hscanned⟩
    have hne := sweep_ne_iff hholds (fun record hmem =>
      (pending_of_mem_retirements record hmem).2) holds_nil (by simp)
      request.claimedAt
    refine hne.trans ((or_iff_left (by simp)).trans ⟨fun hwritten => ?_, fun hlate => ?_⟩)
    · exact .dispatch hvalid hswept hwritten hkept hsettled hbreaks hskipped (by omega)
    · cases hlate with
      | retirement _ hbreaks hfew => exact absurd hfew (not_breaks_of_survives hswept hbreaks)
      | expiry _ _ hbreaks => exact absurd hall hbreaks.not_all
      | dispatch _ _ hwritten => exact hwritten

/-- A delivery throws behind a write exactly when it fails late. -/
theorem ends_nextDelivery (request : ActionClaimRequest) (journal : InMemoryActionJournal) :
    Ends (nextDelivery ctx authority request) journal
      (fun _ _ => ¬ FailsLate ctx authority journal request)
      (fun _ after => after ≠ journal ↔ FailsLate ctx authority journal request) := by
  simp only [nextDelivery, ends_bind, ends_attempt]
  constructor
  case right =>
    intro e he
    refine iff_of_false (not_not.2 rfl) fun hlate => ?_
    rw [hlate.valid] at he
    cases he
  case left =>
    intro _ hvalid
    have hholds : journal.Holds (retirements ctx authority journal request) :=
      holds_retirements
    have hpending : ∀ record ∈ retirements ctx authority journal request,
        record.status = .pending := fun record hmem =>
      (pending_of_mem_retirements record hmem).2
    refine (ends_retireClosedPending hvalid).mono ?_ fun _ _ h => h
    rintro retired _ ⟨hswept, rfl⟩
    refine (ends_expireDueClaims hvalid hswept).mono ?_ fun _ _ h => h
    rintro ⟨replayable, changed⟩ _ ⟨hall, hreplayable, rfl⟩
    dsimp only at hreplayable
    subst hreplayable
    have hreplay : (∀ record ∈ journal.dueRecords request,
        expires ctx authority request record = .ok false) →
        (journal.dueRecords request).filter
            (fun record => !actsOn (expires ctx authority request) record) =
          journal.dueRecords request ∧
        (journal.dueRecords request).filter (actsOn (expires ctx authority request)) = [] := by
      intro hnone
      refine ⟨List.filter_eq_self.2 fun record hmem => ?_,
        List.filter_eq_nil_iff.2 fun record hmem => ?_⟩ <;>
        simp [hnone record hmem, actsOn_of_ok]
    simp only [ends_get]
    split
    · -- An unsettled record comes first.
      rename_i unsettled hunsettled
      rw [ends_pure]
      intro hlate
      cases hlate with
      | retirement _ hbreaks hfew => exact absurd hfew (not_breaks_of_survives hswept hbreaks)
      | expiry _ _ hbreaks => exact absurd hall hbreaks.not_all
      | dispatch _ _ _ hkept hsettled =>
        rw [(hreplay hkept).1, (hreplay hkept).2] at hunsettled
        have hpast := (oldestUnsettled_retireAll hholds hpending request.claimedAt
          request.stream request.runId _).2 hsettled
        cases hpast.symm.trans hunsettled
    · rename_i hsettled
      have hempty := oldestUnsettled_expireAll hholds hpending
        (actsOn (expires ctx authority request)) request.claimedAt hsettled
      have hkept : ∀ record ∈ journal.dueRecords request,
          expires ctx authority request record = .ok false := by
        intro record hmem
        obtain ⟨acts, hacts⟩ := hall record hmem
        have hskip := List.filter_eq_nil_iff.1 hempty record hmem
        rw [actsOn_of_ok hacts, Bool.not_eq_true] at hskip
        rw [hacts, hskip]
      rw [(hreplay hkept).1, hempty] at hsettled ⊢
      have hbefore := (oldestUnsettled_retireAll hholds hpending request.claimedAt
        request.stream request.runId _).1 hsettled
      rw [ends_bind]
      refine (ends_claimPendingRecord hvalid hswept hkept hbefore).mono ?_ fun _ _ h => h
      intro claimed _ hnever
      cases claimed with
      | none => exact hnever
      | some moved => exact hnever

end InMemoryActionJournal

end OpenGameAgent
