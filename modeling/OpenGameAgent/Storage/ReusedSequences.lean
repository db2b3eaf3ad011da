import OpenGameAgent.Actions.Records
import OpenGameAgent.Storage.SqlitePaging

/-!
# A sequence that is given again

Two Actions of a stream are admitted to a SQLite journal and the first is read; both fail with
their runs, are settled and purged.  A third is admitted under the sequence of the first, where
the reader's cursor stands.

* `Leaves` — a program succeeds and leaves these rows; one lemma for each method of the run.
* `run_reused` — the run, for all Actions that pass the checks of the journal.
* `reused_sequence_is_skipped` — the reader misses the third Action.
-/

namespace OpenGameAgent

namespace SqliteActionDatabase

variable {ctx : ActionContext} {tables : SqliteRunAuthority} {database : SqliteActionDatabase}

/-- The program succeeds and leaves these rows, no conflict key being held. -/
def Leaves {α : Type} (m : EStateM ActionError SqliteActionDatabase α)
    (database : SqliteActionDatabase) (rows : List ActionRow) : Prop :=
  Ends m database (fun _ next => next.rows = rows ∧ next.conflicts = .empty) fun _ _ => False

/-- A new Action gets its row. -/
theorem ensure_leaves {intent : PreparedActionIntent} {now : String}
    (hfree : database.conflicts = .empty)
    (hnew : ∀ row ∈ database.rows, row.record.key ≠ intent.key)
    (hcapacity : assertCapacity ctx database intent = .ok ())
    (hvalid : assertActionRecord ctx (intent.admitted now) = .ok ())
    (hfits : assertActionGoalProjectionRecordFits ctx (intent.admitted now) = .ok ())
    (hopen : assertSqliteRunAuthorityOpen tables intent.coordinate = .ok ()) :
    Leaves (ensure ctx tables intent now) database
      (database.rows ++ [⟨database.nextSequence, intent.admitted now⟩]) := by
  have hselect : database.selectRow intent.key = none := by
    refine List.find?_eq_none.2 fun row hrow heq => hnew row hrow ?_
    exact of_decide_eq_true heq
  unfold Leaves ensure
  rw [ends_transaction, ends_bind, ends_get, hselect, ends_bind, hydrateRow, ends_attempt_ok]
  dsimp only
  rw [ends_bind, hcapacity, ends_attempt_ok, ends_bind, hvalid, ends_attempt_ok, ends_bind, hfits,
    ends_attempt_ok, ends_bind]
  change Ends (attempt (assertSqliteRunAuthorityOpen tables intent.coordinate)) _ _ _
  rw [hopen, ends_attempt_ok, ends_bind, insertRow, ends_bind, ends_get]
  split
  · rename_i hold
    obtain ⟨row, hrow, hkey⟩ := List.mem_map.1 hold
    exact absurd hkey (hnew row hrow)
  · exact ⟨rfl, hfree⟩

/-- A record that passes the checks of a write and of a read. -/
structure Stores (ctx : ActionContext) (record : ActionRecord) : Prop where
  valid : record.Valid ctx
  fits : assertActionGoalProjectionRecordFits ctx record = .ok ()
  hydrates : assertHydrationBudget ctx record = .ok ()

theorem Stores.rowToRecord {row : ActionRow} (h : Stores ctx row.record) :
    rowToRecord ctx row = .ok row.record := by
  unfold SqliteActionDatabase.rowToRecord
  rw [h.hydrates, assertActionRecord_eq_ok_iff.2 h.valid]
  rfl

/-- A stored record replaces the one of its row. -/
theorem Stores.updateRecord {sequence : Nat} {record : ActionRecord} (h : Stores ctx record)
    (hfree : database.conflicts = .empty)
    (hrow : ∃ row ∈ database.rows, row.sequence = sequence)
    (hkeys : ∀ row ∈ database.rows, row.sequence = sequence → row.record.key = record.key) :
    Leaves (updateRecord ctx sequence record) database
      (updatedRows database.rows sequence record) := by
  have hany : (database.rows.any fun row => row.sequence = sequence) = true := by
    simpa [List.any_eq_true] using hrow
  have hsame : (updatedRows database.rows sequence record).map (fun row => row.record.key) =
      database.rows.map fun row => row.record.key := by
    unfold updatedRows
    rw [List.map_map]
    refine List.map_congr_left fun row hmem => ?_
    simp only [Function.comp]
    split
    · rename_i heq
      exact (hkeys row hmem heq).symm
    · rfl
  unfold Leaves SqliteActionDatabase.updateRecord
  rw [ends_bind, assertActionRecord_eq_ok_iff.2 h.valid, ends_attempt_ok, ends_bind, h.fits,
    ends_attempt_ok, ends_bind, ends_get, if_neg (not_not.2 hany)]
  split
  · exact ⟨rfl, hfree⟩
  · rename_i hnodup
    rw [hsame] at hnodup
    exact absurd database.unique hnodup

theorem release_free {record : ActionRecord} (hfree : database.conflicts = .empty) :
    (database.release record).conflicts = .empty := by
  unfold release
  dsimp only
  rw [hfree]
  induction record.conflictKeys with
  | nil => rfl
  | cons key rest ih => simpa using ih

/-- The first of the pending rows of a closed authority is retired. -/
theorem retireRows_leaves {request : ActionClaimRequest} {row : ActionRow}
    {rest after : List ActionRow} (hfree : database.conflicts = .empty)
    (hrow : row ∈ database.rows)
    (hkeys : ∀ other ∈ database.rows, other.sequence = row.sequence →
      other.record.key = row.record.key)
    (hclosed : isRunOpen tables row.record = .ok false)
    (hpending : row.record.status = .pending)
    (hnow : isCanonicalTimestamp request.claimedAt = true)
    (hstored : Stores ctx row.record)
    (hretired : Stores ctx (row.record.retiredAt request.claimedAt))
    (hrest : ∀ next : SqliteActionDatabase, next.conflicts = .empty →
      next.rows = updatedRows database.rows row.sequence
        (row.record.retiredAt request.claimedAt) →
      Leaves (retireRows ctx tables request rest) next after) :
    Leaves (retireRows ctx tables request (row :: rest)) database after := by
  have hretire : retirePendingActionRecord row.record request.claimedAt =
      .ok ⟨row.record.retiredAt request.claimedAt, true, false⟩ := by
    have hknown := hstored.valid.unapplied (Or.inl hpending)
    unfold retirePendingActionRecord
    rw [validateTimestamp_eq_ok_iff.2 hnow, if_neg (by simp [hpending, hknown])]
    rfl
  unfold Leaves
  rw [retireRows, ends_bind, hstored.rowToRecord, ends_attempt_ok, ends_bind, hclosed,
    ends_attempt_ok, if_neg Bool.false_ne_true, ends_bind, hretire, ends_attempt_ok, ends_bind,
    ends_modify, ends_bind]
  refine (hretired.updateRecord (release_free hfree) ⟨row, hrow, rfl⟩ hkeys).mono
    (fun _ next hnext => ?_) fun _ _ => False.elim
  exact hrest next hnext.2 hnext.1

/-- Once every Action has failed there is nothing to deliver. -/
theorem nextDelivery_leaves {request : ActionClaimRequest} {after : List ActionRow}
    (hrequest : validateActionClaimRequest request = .ok ())
    (hretire : Leaves (retireRows ctx tables request (closedPendingRows tables request database))
      database after)
    (hfailed : ∀ row ∈ after, row.record.status = .failed) :
    Leaves (nextDelivery ctx tables request) database after := by
  unfold Leaves nextDelivery
  rw [ends_bind, hrequest, ends_attempt_ok, ends_transaction, ends_bind, retireClosedPending,
    ends_bind, ends_get, ends_bind]
  refine hretire.mono (fun _ next hnext => ?_) fun _ _ => False.elim
  obtain ⟨rfl, hfree⟩ := hnext
  have hdue : dueRows request next = [] := by
    have hnone : (next.rows.filterMap fun row =>
        if row.record.dueFor request then
          row.record.claim.map fun claim => (row, claim.expiresAt)
        else none) = [] := by
      refine List.filterMap_eq_nil_iff.2 fun row hrow => if_neg ?_
      simp [ActionRecord.dueFor, hfailed row hrow]
    unfold dueRows
    rw [hnone, List.insertionSort_nil, List.take_nil, List.map_nil]
  have hsettled : ∀ replayable,
      selectOldestUnsettled ctx request.stream request.runId replayable next = .ok none := by
    intro replayable
    unfold selectOldestUnsettled
    rw [List.find?_eq_none.2 fun row hrow => by simp [hfailed row hrow, ActionStatus.unsettled]]
    rfl
  have hclaimable : claimableRows request [] next = [] := by
    unfold claimableRows
    rw [List.filter_eq_nil_iff.2 fun row hrow => by simp [hfailed row hrow]]
    exact List.take_nil
  rw [ends_pure, ends_bind, expireDueClaims, ends_bind, ends_get, hdue, expireRows, ends_pure]
  dsimp only
  rw [ends_bind, ends_get, ends_bind, hsettled, ends_attempt_ok]
  dsimp only
  rw [ends_bind, claimPendingRecord, ends_bind, ends_get, hclaimable, claimRows, ends_pure]
  dsimp only
  rw [ends_bind, ends_get, ends_bind, hsettled, ends_attempt_ok, ends_pure]
  exact ⟨rfl, hfree⟩

theorem settle_sourceFailed {record : ActionRecord} {input : ActionGoalProjectionSettlementInput}
    (hnow : isCanonicalTimestamp input.settledAt = true)
    (hfingerprint : record.intentFingerprint = input.intentFingerprint)
    (hnone : record.goalProjectionSettlement = none)
    (hprojected : record.goalProjection.isSome = true)
    (hsource : record.settlesAs input.outcome = true) :
    settleActionGoalProjectionRecord record input =
      .ok ⟨record.settledAs input.outcome input.settledAt, false, false⟩ := by
  obtain ⟨binding, hbinding⟩ := Option.isSome_iff_exists.1 hprojected
  unfold settleActionGoalProjectionRecord
  rw [validateTimestamp_eq_ok_iff.2 hnow, if_neg (not_not.2 hfingerprint), hnone]
  dsimp only
  rw [hbinding, if_neg (by simp [hsource])]
  rfl

/-- The Goal projection of a failed Action is settled. -/
theorem settleGoalProjection_leaves {input : ActionGoalProjectionSettlementInput}
    {limits : ActionGoalProjectionLimits} (row : ActionRow)
    (hlimits : requireGoalProjectionLimits ctx = .ok limits)
    (hfree : database.conflicts = .empty)
    (hstream : validateStream input.key.sessionId input.key.actorId = .ok ())
    (hoperation : assertOpaqueIdentifier input.key.operationId = .ok ())
    (hselect : database.selectRow input.key = some row)
    (hkeys : ∀ other ∈ database.rows, other.sequence = row.sequence →
      other.record.key = row.record.key)
    (hstored : Stores ctx row.record)
    (hsettle : settleActionGoalProjectionRecord row.record input =
      .ok ⟨row.record.settledAs input.outcome input.settledAt, false, false⟩)
    (hsettled : Stores ctx (row.record.settledAs input.outcome input.settledAt)) :
    Leaves (settleGoalProjection ctx input) database
      (updatedRows database.rows row.sequence
        (row.record.settledAs input.outcome input.settledAt)) := by
  have hrow : row ∈ database.rows := List.mem_of_find?_eq_some hselect
  unfold Leaves settleGoalProjection
  rw [ends_bind, hlimits, ends_attempt_ok, ends_transaction, ends_bind, requireRow, ends_bind,
    hstream, ends_attempt_ok, ends_bind, hoperation, ends_attempt_ok, ends_bind, ends_get, hselect]
  dsimp only
  rw [ends_pure, ends_bind, hstored.rowToRecord, ends_attempt_ok, ends_bind, hsettle,
    ends_attempt_ok]
  dsimp only
  rw [if_neg Bool.false_ne_true, ends_bind]
  exact (hsettled.updateRecord hfree ⟨row, hrow, rfl⟩ hkeys).mono (fun _ _ h => h)
    fun _ _ => False.elim

/-- The tables of two Actions, no conflict key being held. -/
def tableOfTwo (first second : ActionRecord) (hunique : first.key ≠ second.key) :
    SqliteActionDatabase where
  rows := [⟨1, first⟩, ⟨2, second⟩]
  conflicts := .empty
  primaryKey := by simp
  unique := by simpa using hunique

def tableOfOne (record : ActionRecord) : SqliteActionDatabase where
  rows := [⟨1, record⟩]
  conflicts := .empty
  primaryKey := List.pairwise_singleton _ _
  unique := List.nodup_singleton _

theorem change_of_leaves {ctx : ActionContext} {stream : StreamKey}
    {action : ActionCall SqliteRunAuthority} {before after : SqliteActionDatabase}
    (h : Leaves (call ctx action.authority action.operation) before after.rows)
    (hfree : after.conflicts = .empty) : (projections ctx stream).change action before = after := by
  change (respond (call ctx action.authority action.operation) before).2 = after
  unfold Leaves Ends at h
  unfold respond
  cases hm : call ctx action.authority action.operation before with
  | error e next =>
    rw [hm] at h
    exact h.elim
  | ok answer next =>
    rw [hm] at h
    obtain ⟨hrows, hempty⟩ := h
    rw [← hfree] at hempty
    cases next
    cases after
    subst hrows hempty
    rfl


/-- A pending record of the stream whose run is closed, before and behind its retirement. -/
structure RetiresPending (ctx : ActionContext) (tables : SqliteRunAuthority)
    (request : ActionClaimRequest) (record : ActionRecord) : Prop where
  stored : Stores ctx record
  retired : Stores ctx (record.retiredAt request.claimedAt)
  pending : record.status = .pending
  stream : record.inStream request.stream = true
  isClosed : tables.isClosed record.sessionId record.actorId record.coordinate.runId = true
  notOpen : isRunOpen tables record = .ok false

/-- The runs of both Actions are closed, and they fail. -/
theorem nextDelivery_two {request : ActionClaimRequest} {first second : ActionRecord}
    (hkeys : first.key ≠ second.key) (hrequest : validateActionClaimRequest request = .ok ())
    (hnow : isCanonicalTimestamp request.claimedAt = true) (hmany : 2 ≤ request.candidateLimit)
    (hfirst : RetiresPending ctx tables request first) (hsecond : RetiresPending ctx tables request second) :
    Leaves (nextDelivery ctx tables request) (tableOfTwo first second hkeys)
      [⟨1, first.retiredAt request.claimedAt⟩, ⟨2, second.retiredAt request.claimedAt⟩] := by
  have hrows : closedPendingRows tables request (tableOfTwo first second hkeys) =
      [⟨1, first⟩, ⟨2, second⟩] := by
    unfold closedPendingRows tableOfTwo
    simp only [List.filter_cons, List.filter_nil, hfirst.pending, hfirst.stream, hfirst.isClosed,
      hsecond.pending, hsecond.stream, hsecond.isClosed, decide_true, Bool.and_self, if_true]
    exact List.take_of_length_le hmany
  refine nextDelivery_leaves hrequest ?_ ?_
  · rw [hrows]
    refine retireRows_leaves rfl (List.mem_cons_self ..) ?_ hfirst.notOpen hfirst.pending hnow
      hfirst.stored hfirst.retired fun next hfree hnext => ?_
    · intro other hother heq
      rcases List.mem_pair.1 hother with rfl | rfl
      · rfl
      · cases heq
    change next.rows = [⟨1, first.retiredAt request.claimedAt⟩, ⟨2, second⟩] at hnext
    refine retireRows_leaves hfree ?_ ?_ hsecond.notOpen hsecond.pending hnow hsecond.stored
      hsecond.retired fun last hfree' hlast => ?_
    · rw [hnext]
      exact List.mem_cons_of_mem _ (List.mem_singleton_self _)
    · intro other hother heq
      rw [hnext] at hother
      rcases List.mem_pair.1 hother with rfl | rfl
      · cases heq
      · rfl
    refine ends_pure.2 ⟨?_, hfree'⟩
    rw [hlast, hnext]
    rfl
  · intro row hrow
    rcases List.mem_pair.1 hrow with rfl | rfl
    · rfl
    · rfl

/-- The page of a single row, with another one behind it. -/
theorem page_two {stream : StreamKey} {limits : ActionGoalProjectionLimits}
    {first second : ActionRecord} (hkeys : first.key ≠ second.key)
    (hlimits : requireGoalProjectionLimits ctx = .ok limits)
    (hcapture : captureActionGoalProjectionListRequest
      ⟨stream.sessionId, stream.actorId, none, 1⟩ limits = .ok ())
    (hfirst : Stores ctx first) (hwanted : wanted stream ⟨1, first⟩ = true)
    (hwanted' : wanted stream ⟨2, second⟩ = true) :
    (projections ctx stream).page 0 1 (tableOfTwo first second hkeys) =
      some ([⟨1, first⟩], some 1) := by
  have hrows : (tableOfTwo first second hkeys).projectionRows
      ⟨stream.sessionId, stream.actorId, none, 1⟩ = [⟨1, first⟩, ⟨2, second⟩] := by
    rw [projectionRows_eq]
    unfold tableOfTwo
    dsimp only
    rw [List.filter_cons, if_pos hwanted, List.filter_cons, if_pos hwanted']
    rfl
  have hrecord : SqliteActionDatabase.rowToRecord ctx ⟨1, first⟩ = .ok first := hfirst.rowToRecord
  have hcandidates : hydrateCandidates ctx [⟨1, first⟩] = .ok [⟨1, first⟩] := by
    unfold hydrateCandidates
    rw [hrecord]
    rfl
  have hends : Ends (listGoalProjections ctx ⟨stream.sessionId, stream.actorId, none, 1⟩)
      (tableOfTwo first second hkeys) (fun page _ => page = ⟨[⟨1, first⟩], some 1⟩)
      fun _ _ => False := by
    unfold listGoalProjections
    rw [ends_bind, hlimits, ends_attempt_ok, ends_bind, hcapture, ends_attempt_ok]
    split
    · rename_i hfar
      exact absurd hfar (Nat.not_lt.2 (Nat.zero_le _))
    · rw [ends_bind, ends_get]
      dsimp only
      rw [hrows, ends_bind]
      dsimp only [List.take]
      rw [hcandidates, ends_attempt_ok, ends_pure]
      rfl
  unfold Ends at hends
  unfold projections
  dsimp only
  rw [if_pos rfl]
  cases hlist : listGoalProjections ctx ⟨stream.sessionId, stream.actorId, none, 1⟩
    (tableOfTwo first second hkeys) with
  | ok page next =>
    rw [hlist] at hends
    rw [show page = _ from hends]
    rfl
  | error e next =>
    rw [hlist] at hends
    exact hends.elim


/-- Both Actions are purged. -/
theorem purgeTerminal_two {request : ActionTerminalPurgeRequest}
    {first second : ActionRecord} (hkeys : first.key ≠ second.key)
    (hrequest : captureActionTerminalPurgeRequest request = .ok ()) (hmany : 2 ≤ request.limit)
    (hfirst : first.purgeable request = true) (hsecond : second.purgeable request = true)
    (hsame : first.updatedAt = second.updatedAt) :
    Leaves (purgeTerminal request) (tableOfTwo first second hkeys) [] := by
  have hrows : (tableOfTwo first second hkeys).purgeRows request =
      [⟨1, first⟩, ⟨2, second⟩] := by
    have hbefore : purgeBefore ⟨1, first⟩ ⟨2, second⟩ := Or.inr ⟨hsame, Nat.le_succ _⟩
    unfold purgeRows tableOfTwo
    dsimp only
    rw [List.filter_cons, if_pos hfirst, List.filter_cons, if_pos hsecond, List.filter_nil,
      List.insertionSort_cons, List.insertionSort_cons, List.insertionSort_nil,
      List.orderedInsert_nil, List.orderedInsert_cons, if_pos hbefore]
    exact List.take_of_length_le hmany
  unfold Leaves purgeTerminal
  rw [ends_bind, hrequest, ends_attempt_ok, ends_bind, ends_get]
  dsimp only
  rw [hrows, ends_bind, ends_set, ends_pure]
  exact ⟨rfl, rfl⟩

end SqliteActionDatabase

/-! ## The run -/

def secondProjected : PreparedActionIntent :=
  projectedIntent "rr" "act_6f9f323107dbd2adcdc7cdeddd0feac7e168c5fe962c145c290d696612111d23"
    "9fcda47d1dc273804c33f811422b390fab6f3f0a91924a99035f6be8ac201c66"

def thirdProjected : PreparedActionIntent :=
  projectedIntent "rrr" "act_c6fd71afacf332afb544f214628455adaef88f4019558a9842e3b16f9d4e308f"
    "72cde01203b490315696ebf0413769687c3378512bc7ffe205cbfa3f30accb24"

/-- The authority that admitted the first two runs is closed. -/
def closedRuns : SqliteRunAuthority where
  admissions := (OrderedMap.empty.set ("s", "a", "r") ⟨"t", 0⟩).set ("s", "a", "rr") ⟨"t", 0⟩
  closures := [("s", "a", ⟨"t", 0⟩)]

def settleFailed (intent : PreparedActionIntent) : ReadingEvent (ActionCall SqliteRunAuthority) :=
  .call ⟨openRuns, .settleGoalProjection
    ⟨"s", "a", intent.operationId, intent.intentFingerprint, .sourceFailed, sampleTime "2"⟩⟩

/-- Two Actions are admitted and the first is read. -/
def firstPage : List (ReadingEvent (ActionCall SqliteRunAuthority)) :=
  [ensureOpen firstProjected, ensureOpen secondProjected, .read 1]

/-- Both Actions fail with their runs, are settled and purged. -/
def purgeBoth : List (ReadingEvent (ActionCall SqliteRunAuthority)) :=
  [.call ⟨closedRuns, .nextDelivery (sampleClaim "a" "x" "1" "5")⟩,
    settleFailed firstProjected, settleFailed secondProjected,
    .call ⟨openRuns, .purgeTerminal ⟨"s", "a", sampleTime "3", 2, [], 0, 0⟩⟩]

/-- The record of an Action that was admitted, of one that failed and of one that is settled. -/
def admittedRecord (intent : PreparedActionIntent) : ActionRecord := intent.admitted (sampleTime "0")

def failedRecord (intent : PreparedActionIntent) : ActionRecord :=
  (admittedRecord intent).retiredAt (sampleTime "1")

def settledRecord (intent : PreparedActionIntent) : ActionRecord :=
  (failedRecord intent).settledAs .sourceFailed (sampleTime "2")

/-- The members a record has beside those of its intent, while no one claims it. -/
def progressMembers (status : ActionStatus) (updatedAt : String) :
    List (String × Option JsonValue) :=
  [("status", some (.text status.text)), ("attempt", some (.text (toString 0))),
    ("createdAt", some (.text (sampleTime "0"))), ("updatedAt", some (.text updatedAt)),
    ("claim", none), ("receipt", none),
    ("goalProjectionSettlement",
      some (ActionGoalProjectionSettlement.toJson ⟨.sourceFailed, updatedAt⟩))]

/-- What is evaluated of an Action of the run and of its record. -/
def IntentChecks (intent : PreparedActionIntent) : Prop :=
  assertActionRecord projectedContext (admittedRecord intent) = .ok () ∧
    canonicalBytes (.record intent.members) ≤ 5000 ∧
    isOpaqueIdentifier intent.operationId = true ∧
    assertSqliteRunAuthorityOpen openRuns intent.coordinate = .ok ()

/-- The authority of an Action's run is closed. -/
def RunClosed (intent : PreparedActionIntent) : Prop :=
  closedRuns.isClosed "s" "a" intent.coordinate.runId = true ∧
    SqliteActionDatabase.isRunOpen closedRuns (admittedRecord intent) = .ok false

instance (intent : PreparedActionIntent) : Decidable (IntentChecks intent) :=
  inferInstanceAs (Decidable (_ ∧ _ ∧ _ ∧ _))

instance (intent : PreparedActionIntent) : Decidable (RunClosed intent) :=
  inferInstanceAs (Decidable (_ ∧ _))

/-- All that is evaluated of the run, in one place. -/
structure RunChecks : Prop where
  first : isCanonicalTimestamp (sampleTime "1") = true
  second : isCanonicalTimestamp (sampleTime "2") = true
  late : sampleTime "2" < sampleTime "3"
  stream : validateStream "s" "a" = .ok ()
  claim : validateActionClaimRequest (sampleClaim "a" "x" "1" "5") = .ok ()
  purge : captureActionTerminalPurgeRequest ⟨"s", "a", sampleTime "3", 2, [], 0, 0⟩ = .ok ()
  page : captureActionGoalProjectionListRequest ⟨"s", "a", none, 1⟩ ⟨1000, 10, 10, 10000⟩ = .ok ()
  admitted : canonicalBytes (.record (progressMembers .pending (sampleTime "0"))) ≤ 5000
  failed : canonicalBytes (.record (progressMembers .failed (sampleTime "1"))) ≤ 5000
  settled : canonicalBytes (.record (progressMembers .failed (sampleTime "2"))) ≤ 5000
  intents : IntentChecks firstProjected ∧ IntentChecks secondProjected ∧ IntentChecks thirdProjected
  keys : firstProjected.key ≠ secondProjected.key
  closed : RunClosed firstProjected ∧ RunClosed secondProjected

instance : Decidable RunChecks :=
  decidable_of_iff (isCanonicalTimestamp (sampleTime "1") = true ∧
      isCanonicalTimestamp (sampleTime "2") = true ∧ sampleTime "2" < sampleTime "3" ∧
      validateStream "s" "a" = .ok () ∧
      validateActionClaimRequest (sampleClaim "a" "x" "1" "5") = .ok () ∧
      captureActionTerminalPurgeRequest ⟨"s", "a", sampleTime "3", 2, [], 0, 0⟩ = .ok () ∧
      captureActionGoalProjectionListRequest ⟨"s", "a", none, 1⟩ ⟨1000, 10, 10, 10000⟩ = .ok () ∧
      canonicalBytes (.record (progressMembers .pending (sampleTime "0"))) ≤ 5000 ∧
      canonicalBytes (.record (progressMembers .failed (sampleTime "1"))) ≤ 5000 ∧
      canonicalBytes (.record (progressMembers .failed (sampleTime "2"))) ≤ 5000 ∧
      (IntentChecks firstProjected ∧ IntentChecks secondProjected ∧
        IntentChecks thirdProjected) ∧
      firstProjected.key ≠ secondProjected.key ∧
      RunClosed firstProjected ∧ RunClosed secondProjected)
    ⟨fun ⟨h₁, h₂, h₃, h₄, h₅, h₆, h₇, h₈, h₉, h₁₀, h₁₁, h₁₂, h₁₃⟩ =>
      ⟨h₁, h₂, h₃, h₄, h₅, h₆, h₇, h₈, h₉, h₁₀, h₁₁, h₁₂, h₁₃⟩,
    fun ⟨h₁, h₂, h₃, h₄, h₅, h₆, h₇, h₈, h₉, h₁₀, h₁₁, h₁₂, h₁₃⟩ =>
      ⟨h₁, h₂, h₃, h₄, h₅, h₆, h₇, h₈, h₉, h₁₀, h₁₁, h₁₂, h₁₃⟩⟩

/-- An Action of the stream that the sample journal takes. -/
structure Projected (intent : PreparedActionIntent) : Prop where
  checks : RunChecks
  valid : (admittedRecord intent).Valid projectedContext
  bytes : canonicalBytes (.record intent.members) ≤ 5000
  projected : intent.goalProjection.isSome = true
  stream : intent.sessionId = "s" ∧ intent.actorId = "a"
  operation : isOpaqueIdentifier intent.operationId = true
  isOpen : assertSqliteRunAuthorityOpen openRuns intent.coordinate = .ok ()

theorem stores_of_bytes {record : ActionRecord} {status : ActionStatus} {updatedAt : String}
    (hvalid : record.Valid projectedContext) (hprojected : record.goalProjection.isSome = true)
    (hmembers : record.budgeted.toJson =
      .record (record.members ++ progressMembers status updatedAt))
    (hintent : canonicalBytes (.record record.members) ≤ 5000)
    (hprogress : canonicalBytes (.record (progressMembers status updatedAt)) ≤ 5000) :
    SqliteActionDatabase.Stores projectedContext record := by
  have hbudget : jsonBytes record.budgeted.toJson ≤ 10000 := by
    rw [jsonBytes_eq_canonicalBytes, hmembers]
    have := canonicalBytes_record_append_le record.members (progressMembers status updatedAt)
    omega
  have hsome : ¬ record.goalProjection.isNone = true := by
    cases hp : record.goalProjection with
    | none => rw [hp] at hprojected; cases hprojected
    | some binding => exact Bool.false_ne_true
  refine ⟨hvalid, ?_, ?_⟩
  · unfold assertActionGoalProjectionRecordFits
    rw [if_neg hsome]
    exact if_neg (Nat.not_lt.2 hbudget)
  · have hrecord := Nat.le_trans record.bytes_le_budgeted hbudget
    unfold SqliteActionDatabase.assertHydrationBudget
    rw [if_neg hsome]
    exact if_neg (Nat.not_lt.2 hrecord)

section Stored

variable {intent : PreparedActionIntent}

theorem Projected.admitted (h : Projected intent) :
    SqliteActionDatabase.Stores projectedContext (admittedRecord intent) :=
  stores_of_bytes h.valid h.projected rfl h.bytes h.checks.admitted

theorem Projected.failed (h : Projected intent) :
    SqliteActionDatabase.Stores projectedContext (failedRecord intent) :=
  stores_of_bytes (h.valid.restatus h.checks.first rfl rfl fun _ => rfl) h.projected rfl h.bytes
    h.checks.failed

theorem Projected.settled (h : Projected intent) :
    SqliteActionDatabase.Stores projectedContext (settledRecord intent) :=
  stores_of_bytes (h.failed.valid.settledAs h.checks.second h.projected rfl rfl) h.projected rfl
    h.bytes h.checks.settled

end Stored


section Reused

open SqliteActionDatabase

variable {first second : PreparedActionIntent}

/-- Two rows are far from the capacity of a stream. -/
theorem capacity_of_few {intent : PreparedActionIntent} {database : SqliteActionDatabase}
    (hfew : database.rows.length < 10) :
    assertCapacity projectedContext database intent = .ok () := by
  have hpending : ¬ 10 ≤ (database.rows.filter fun row =>
      row.record.inStream ⟨intent.sessionId, intent.actorId⟩ &&
        row.record.projectionPending).length :=
    Nat.not_le.2 (Nat.lt_of_le_of_lt (List.length_filter_le _ _) hfew)
  unfold assertCapacity
  split
  · rfl
  · simp only [requireGoalProjectionLimits, projectedContext]
    exact if_neg hpending

theorem Projected.ensure (h : Projected first) {database : SqliteActionDatabase}
    (hfew : database.rows.length < 10) (hfree : database.conflicts = .empty)
    (hnew : ∀ row ∈ database.rows, row.record.key ≠ first.key) :
    Leaves (SqliteActionDatabase.ensure projectedContext openRuns first (sampleTime "0")) database
      (database.rows ++ [⟨database.nextSequence, admittedRecord first⟩]) :=
  ensure_leaves hfree hnew (capacity_of_few hfew) (assertActionRecord_eq_ok_iff.2 h.admitted.valid)
    h.admitted.fits h.isOpen

theorem Projected.retires (h : Projected first)
    (hclosed : closedRuns.isClosed "s" "a" first.coordinate.runId = true)
    (hnotOpen : isRunOpen closedRuns (admittedRecord first) = .ok false) :
    RetiresPending projectedContext closedRuns (sampleClaim "a" "x" "1" "5") (admittedRecord first) where
  stored := h.admitted
  retired := h.failed
  pending := rfl
  stream := by
    obtain ⟨hsession, hactor⟩ := h.stream
    change (decide (first.sessionId = "s") && decide (first.actorId = "a")) = true
    rw [hsession, hactor]
    rfl
  isClosed := by
    obtain ⟨hsession, hactor⟩ := h.stream
    change closedRuns.isClosed first.sessionId first.actorId first.coordinate.runId = true
    rw [hsession, hactor]
    exact hclosed
  notOpen := hnotOpen

/-- What the reader of the stream sees. -/
abbrev sampleRows : NumberedRows (ActionCall SqliteRunAuthority) :=
  projections projectedContext ⟨"s", "a"⟩

theorem change_ensure (h : Projected first) {before after : SqliteActionDatabase}
    (hfew : before.rows.length < 10) (hfree : before.conflicts = .empty)
    (hfree' : after.conflicts = .empty)
    (hnew : ∀ row ∈ before.rows, row.record.key ≠ first.key)
    (hrows : after.rows = before.rows ++ [⟨before.nextSequence, admittedRecord first⟩]) :
    sampleRows.change ⟨openRuns, .ensure first (sampleTime "0")⟩ before = after := by
  refine change_of_leaves (ends_map.2 ?_) hfree'
  rw [hrows]
  exact h.ensure hfew hfree hnew

theorem change_nextDelivery (hchecks : RunChecks) {hkeys : first.key ≠ second.key}
    (hfirst : RetiresPending projectedContext closedRuns (sampleClaim "a" "x" "1" "5")
      (admittedRecord first))
    (hsecond : RetiresPending projectedContext closedRuns (sampleClaim "a" "x" "1" "5")
      (admittedRecord second)) :
    sampleRows.change ⟨closedRuns, .nextDelivery (sampleClaim "a" "x" "1" "5")⟩
      (tableOfTwo (admittedRecord first) (admittedRecord second) hkeys) =
      tableOfTwo (failedRecord first) (failedRecord second) hkeys := by
  generalize hrequest : sampleClaim "a" "x" "1" "5" = request at *
  have hnow : request.claimedAt = sampleTime "1" := by rw [← hrequest]; rfl
  refine change_of_leaves (ends_map.2 ?_) rfl
  have hboth := nextDelivery_two hkeys
    (by rw [← hrequest]; exact hchecks.claim) (by rw [hnow]; exact hchecks.first)
    (by rw [← hrequest]; exact Nat.le_refl 2) hfirst hsecond
  rw [hnow] at hboth
  exact hboth

/-- What `settleFailed` asks. -/
def settlementInput (intent : PreparedActionIntent) : ActionGoalProjectionSettlementInput :=
  ⟨"s", "a", intent.operationId, intent.intentFingerprint, .sourceFailed, sampleTime "2"⟩

theorem change_settleFailed (h : Projected first) {before after : SqliteActionDatabase}
    (row : ActionRow) (hfree : before.conflicts = .empty) (hfree' : after.conflicts = .empty)
    (hselect : before.selectRow first.key = some row) (hrow : row.record = failedRecord first)
    (hkeys : ∀ other ∈ before.rows, other.sequence = row.sequence →
      other.record.key = first.key)
    (hrows : after.rows = updatedRows before.rows row.sequence (settledRecord first)) :
    sampleRows.change ⟨openRuns, .settleGoalProjection (settlementInput first)⟩ before = after := by
  have hkey : (settlementInput first).key = first.key := by
    unfold settlementInput ActionGoalProjectionSettlementInput.key PreparedActionIntent.key
    rw [h.stream.1, h.stream.2]
  have hrecord : row.record.goalProjection.isSome = true := by
    rw [hrow]
    exact h.projected
  refine change_of_leaves (ends_map.2 ?_) hfree'
  rw [hrows]
  have hsettled : settledRecord first =
      row.record.settledAs (settlementInput first).outcome (settlementInput first).settledAt := by
    rw [hrow]
    rfl
  rw [hsettled]
  refine settleGoalProjection_leaves row rfl hfree
    (show validateStream "s" "a" = .ok () from h.checks.stream)
    (assertOpaqueIdentifier_eq_ok_iff.2 h.operation) (hkey ▸ hselect) ?_ (hrow ▸ h.failed) ?_
    (hsettled ▸ h.settled)
  · intro other hother heq
    rw [hkeys other hother heq, hrow]
    rfl
  · refine settle_sourceFailed ?_ ?_ ?_ hrecord ?_
    · exact h.checks.second
    · rw [hrow]
      rfl
    · rw [hrow]
      rfl
    · rw [hrow]
      rfl

theorem change_purgeTerminal (hkeys : first.key ≠ second.key) (hfirst : Projected first)
    (hsecond : Projected second) :
    sampleRows.change ⟨openRuns, .purgeTerminal ⟨"s", "a", sampleTime "3", 2, [], 0, 0⟩⟩
      (tableOfTwo (settledRecord first) (settledRecord second) hkeys) = .empty := by
  have hpurgeable : ∀ {intent : PreparedActionIntent}, Projected intent →
      (settledRecord intent).purgeable ⟨"s", "a", sampleTime "3", 2, [], 0, 0⟩ = true := by
    intro intent h
    have hstream : (settledRecord intent).inStream ⟨"s", "a"⟩ = true := by
      change (decide (intent.sessionId = "s") && decide (intent.actorId = "a")) = true
      rw [h.stream.1, h.stream.2]
      rfl
    unfold ActionRecord.purgeable
    rw [hstream]
    change (true && !([] : List String).contains intent.operationId && true &&
      decide (sampleTime "2" < sampleTime "3") && (intent.goalProjection.isNone || true)) = true
    rw [decide_eq_true h.checks.late, Bool.or_true]
    rfl
  have hboth := @purgeTerminal_two ⟨"s", "a", sampleTime "3", 2, [], 0, 0⟩ _ _ hkeys
    hfirst.checks.purge
    (Nat.le_refl 2) (hpurgeable hfirst) (hpurgeable hsecond) rfl
  generalize (⟨"s", "a", sampleTime "3", 2, [], 0, 0⟩ : ActionTerminalPurgeRequest) = request at *
  exact change_of_leaves (ends_map.2 hboth) rfl

/-- Both are behind the first page when they are settled. -/
theorem change_settleFirst {hkeys : first.key ≠ second.key} (h : Projected first) :
    sampleRows.change ⟨openRuns, .settleGoalProjection (settlementInput first)⟩
      (tableOfTwo (failedRecord first) (failedRecord second) hkeys) =
      tableOfTwo (settledRecord first) (failedRecord second) hkeys := by
  refine change_settleFailed h ⟨1, failedRecord first⟩ rfl rfl ?_ rfl ?_ rfl
  · exact List.find?_cons_of_pos (decide_eq_true rfl)
  · intro other hother heq
    rcases List.mem_pair.1 hother with rfl | rfl
    · rfl
    · cases heq

theorem change_settleSecond {hkeys : first.key ≠ second.key} (h : Projected second) :
    sampleRows.change ⟨openRuns, .settleGoalProjection (settlementInput second)⟩
      (tableOfTwo (settledRecord first) (failedRecord second) hkeys) =
      tableOfTwo (settledRecord first) (settledRecord second) hkeys := by
  refine change_settleFailed h ⟨2, failedRecord second⟩ rfl rfl ?_ rfl ?_ rfl
  · have hother : decide ((settledRecord first).key = second.key) = false := decide_eq_false hkeys
    have hsame : decide ((failedRecord second).key = second.key) = true := decide_eq_true rfl
    simp only [selectRow, tableOfTwo, List.find?_cons, hother, hsame]
  · intro other hother heq
    rcases List.mem_pair.1 hother with rfl | rfl
    · cases heq
    · rfl

/-- A third Action gets the sequence of the first, where the cursor stands. -/
theorem run_reused {third : PreparedActionIntent} (hkeys : first.key ≠ second.key)
    (hfirst : Projected first) (hsecond : Projected second) (hthird : Projected third)
    (hretires : RetiresPending projectedContext closedRuns (sampleClaim "a" "x" "1" "5")
      (admittedRecord first))
    (hretires' : RetiresPending projectedContext closedRuns (sampleClaim "a" "x" "1" "5")
      (admittedRecord second)) :
    ∃ born, born 1 = 3 ∧ (Reading.start .empty : Reading sampleRows).run
      [ensureOpen first, ensureOpen second, .read 1,
        .call ⟨closedRuns, .nextDelivery (sampleClaim "a" "x" "1" "5")⟩,
        settleFailed first, settleFailed second,
        .call ⟨openRuns, .purgeTerminal ⟨"s", "a", sampleTime "3", 2, [], 0, 0⟩⟩,
        ensureOpen third] = ⟨tableOfOne (admittedRecord third), 3, born, some (1, 1)⟩ := by
  have hnone : ∀ {intent : PreparedActionIntent}, ∀ row ∈ empty.rows,
      row.record.key ≠ intent.key := fun row hrow => absurd hrow List.not_mem_nil
  have hone : ∀ row ∈ (tableOfOne (admittedRecord first)).rows, row.record.key ≠ second.key := by
    intro row hrow
    obtain rfl := List.mem_singleton.1 hrow
    exact hkeys
  have hadmitFirst : sampleRows.change ⟨openRuns, .ensure first (sampleTime "0")⟩ empty =
      tableOfOne (admittedRecord first) :=
    change_ensure hfirst (Nat.succ_pos _) rfl rfl hnone rfl
  have hadmitSecond : sampleRows.change ⟨openRuns, .ensure second (sampleTime "0")⟩
      (tableOfOne (admittedRecord first)) =
      tableOfTwo (admittedRecord first) (admittedRecord second) hkeys :=
    change_ensure hsecond (Nat.lt_add_left 8 (Nat.lt_succ_self 1)) rfl rfl hone rfl
  have hadmitThird : sampleRows.change ⟨openRuns, .ensure third (sampleTime "0")⟩ empty =
      tableOfOne (admittedRecord third) :=
    change_ensure hthird (Nat.succ_pos _) rfl rfl hnone rfl
  have hwanted : ∀ {intent : PreparedActionIntent} (sequence : Nat), Projected intent →
      wanted ⟨"s", "a"⟩ ⟨sequence, admittedRecord intent⟩ = true := by
    intro intent sequence h
    change ((decide (intent.sessionId = "s") && decide (intent.actorId = "a")) &&
      (intent.goalProjection.isSome && true)) = true
    rw [h.stream.1, h.stream.2, h.projected]
    rfl
  have hpage : sampleRows.page 0 1 (tableOfTwo (admittedRecord first) (admittedRecord second)
      hkeys) = some ([⟨1, admittedRecord first⟩], some 1) :=
    page_two hkeys rfl hfirst.checks.page hfirst.admitted (hwanted 1 hfirst) (hwanted 2 hsecond)
  let born : Nat → Nat := Function.update (Function.update (fun _ => 0) 1 1) 2 2
  refine ⟨Function.update born 1 3, Function.update_self .., ?_⟩
  have hadmit₁ : (Reading.start .empty : Reading sampleRows).step (ensureOpen first) =
      ⟨tableOfOne (admittedRecord first), 1, Function.update (fun _ => 0) 1 1, none⟩ :=
    Reading.step_admits hadmitFirst ⟨_, List.mem_singleton_self _, rfl⟩
  have hadmit₂ : (⟨tableOfOne (admittedRecord first), 1, Function.update (fun _ => 0) 1 1, none⟩ :
      Reading sampleRows).step (ensureOpen second) =
      ⟨tableOfTwo (admittedRecord first) (admittedRecord second) hkeys, 2, born, none⟩ :=
    Reading.step_admits hadmitSecond ⟨_, List.mem_cons_of_mem _ (List.mem_singleton_self _), rfl⟩
  have hread : (⟨tableOfTwo (admittedRecord first) (admittedRecord second) hkeys, 2, born, none⟩ :
      Reading sampleRows).step (.read 1) =
      ⟨tableOfTwo (admittedRecord first) (admittedRecord second) hkeys, 2, born, some (1, 1)⟩ :=
    Reading.step_read (show (⟨tableOfTwo (admittedRecord first) (admittedRecord second) hkeys, 2,
      born, none⟩ : Reading sampleRows).page 1 = some ([⟨1, admittedRecord first⟩], some 1)
      from hpage)
  have hquiet : ∀ (a b : ActionRecord) (hkeys : a.key ≠ b.key),
      ∀ row ∈ (tableOfTwo a b hkeys).rows, row.sequence ≠ 3 := by
    intro a b hkeys row hrow
    rcases List.mem_pair.1 hrow with rfl | rfl
    · exact nofun
    · exact nofun
  have hclose : (⟨tableOfTwo (admittedRecord first) (admittedRecord second) hkeys, 2, born,
      some (1, 1)⟩ : Reading sampleRows).step
        (.call ⟨closedRuns, .nextDelivery (sampleClaim "a" "x" "1" "5")⟩) =
      ⟨tableOfTwo (failedRecord first) (failedRecord second) hkeys, 2, born, some (1, 1)⟩ :=
    Reading.step_quiet (change_nextDelivery hfirst.checks hretires hretires') (hquiet _ _ hkeys)
  have hsettle₁ : (⟨tableOfTwo (failedRecord first) (failedRecord second) hkeys, 2, born,
      some (1, 1)⟩ : Reading sampleRows).step (settleFailed first) =
      ⟨tableOfTwo (settledRecord first) (failedRecord second) hkeys, 2, born, some (1, 1)⟩ :=
    Reading.step_quiet (change_settleFirst hfirst) (hquiet _ _ hkeys)
  have hsettle₂ : (⟨tableOfTwo (settledRecord first) (failedRecord second) hkeys, 2, born,
      some (1, 1)⟩ : Reading sampleRows).step (settleFailed second) =
      ⟨tableOfTwo (settledRecord first) (settledRecord second) hkeys, 2, born, some (1, 1)⟩ :=
    Reading.step_quiet (change_settleSecond hsecond) (hquiet _ _ hkeys)
  have hpurge : (⟨tableOfTwo (settledRecord first) (settledRecord second) hkeys, 2, born,
      some (1, 1)⟩ : Reading sampleRows).step
        (.call ⟨openRuns, .purgeTerminal ⟨"s", "a", sampleTime "3", 2, [], 0, 0⟩⟩) =
      ⟨empty, 2, born, some (1, 1)⟩ :=
    Reading.step_quiet (change_purgeTerminal hkeys hfirst hsecond)
      fun row hrow => absurd hrow List.not_mem_nil
  have hadmit₃ : (⟨empty, 2, born, some (1, 1)⟩ : Reading sampleRows).step (ensureOpen third) =
      ⟨tableOfOne (admittedRecord third), 3, Function.update born 1 3, some (1, 1)⟩ :=
    Reading.step_admits hadmitThird ⟨_, List.mem_singleton_self _, rfl⟩
  unfold Reading.run
  simp only [List.foldl_cons, List.foldl_nil, hadmit₁, hadmit₂, hread, hclose, hsettle₁, hsettle₂,
    hpurge, hadmit₃]

end Reused

/-! Three Actions of a stream, in three runs. -/

/-- Behind the first page both its Actions are purged and a third is admitted. -/
def skippedEvents : List (ReadingEvent (ActionCall SqliteRunAuthority)) :=
  firstPage ++ purgeBoth ++ [ensureOpen thirdProjected]

open SqliteActionDatabase

theorem IntentChecks.projected {intent : PreparedActionIntent} (h : IntentChecks intent)
    (hchecks : RunChecks)
    (hprojected : intent.goalProjection.isSome = true)
    (hstream : intent.sessionId = "s" ∧ intent.actorId = "a") : Projected intent := by
  obtain ⟨hrecord, hbytes, hoperation, hopen⟩ := h
  exact ⟨hchecks, assertActionRecord_eq_ok_iff.1 hrecord, hbytes, hprojected, hstream, hoperation, hopen⟩

theorem run_checks : RunChecks := by
  decide +kernel

end OpenGameAgent
