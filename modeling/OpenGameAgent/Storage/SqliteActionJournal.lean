import OpenGameAgent.Actions.InMemoryJournal

/-!
# The SQLite Action journal

`SqliteActionJournal` of `packages/storage-sqlite/src/sqlite-action-journal.ts`, with
`sqlite-action-projection.ts` and the run authority of `sqlite-run-authority.ts`.

A table carries its constraints: a write that would break one throws.  The columns of
an action row other than `action_sequence` repeat parts of `record_json`, from which
every write takes them, so a row is its sequence and its record.  Rows stand in the
order of the primary key.

Every method that writes is one immediate transaction.
-/

namespace OpenGameAgent

/-! ## The tables -/

/-- A row of `action_records`. -/
structure ActionRow where
  sequence : Nat
  record : ActionRecord

/-- The columns of `action_conflicts` beside its primary key. -/
structure ConflictRow where
  actorId : String
  operationId : String
  deriving DecidableEq, Repr

/-- `action_records` with its primary key and its unique constraint, and
`action_conflicts` with its primary key. -/
structure SqliteActionDatabase where
  rows : List ActionRow
  conflicts : OrderedMap (String × String) ConflictRow
  primaryKey : rows.Pairwise fun a b => a.sequence < b.sequence
  unique : (rows.map fun row => row.record.key).Nodup

/-- The tables of the run authority: what admitted a run, and which authorities are
closed. -/
structure SqliteRunAuthority where
  admissions : OrderedMap (String × String × String) RunAdmissionAuthority
  closures : List (String × String × RunAdmissionAuthority)

/-- Is the authority closed that admitted the run? -/
def SqliteRunAuthority.isClosed (tables : SqliteRunAuthority) (sessionId actorId runId : String) :
    Bool :=
  (tables.admissions.get? (sessionId, actorId, runId)).any fun admission =>
    tables.closures.contains (sessionId, actorId, admission)

/-- `assertSqliteRunAuthorityOpen`; unknown runs are unscoped. -/
def assertSqliteRunAuthorityOpen (tables : SqliteRunAuthority) : RunAuthorityCheck :=
  fun coordinate =>
    if ¬ coordinate.valid then .error .invalidStreamCoordinate
    else if tables.isClosed coordinate.sessionId coordinate.actorId coordinate.runId then
      .error .runAuthorityClosed
    else .ok ()

namespace SqliteActionDatabase

def empty : SqliteActionDatabase where
  rows := []
  conflicts := .empty
  primaryKey := .nil
  unique := List.nodup_nil

/-- An `INTEGER PRIMARY KEY` without `AUTOINCREMENT` takes the largest one plus one. -/
def nextSequence (database : SqliteActionDatabase) : Nat :=
  match database.rows.getLast? with
  | none => 1
  | some row => row.sequence + 1

theorem lt_nextSequence {database : SqliteActionDatabase} {row : ActionRow}
    (h : row ∈ database.rows) : row.sequence < database.nextSequence := by
  obtain ⟨front, last, hrows⟩ : ∃ front last, database.rows = front ++ [last] := by
    have hne : database.rows ≠ [] := List.ne_nil_of_mem h
    exact ⟨_, _, (List.dropLast_append_getLast hne).symm⟩
  have hlast : database.nextSequence = last.sequence + 1 := by
    unfold nextSequence
    rw [hrows, List.getLast?_append, List.getLast?_singleton]
    rfl
  have hkey := database.primaryKey
  rw [hrows, List.pairwise_append] at hkey
  rw [hrows] at h
  rcases List.mem_append.1 h with h | h
  · have := hkey.2.2 row h last (List.mem_singleton_self _)
    omega
  · rw [List.mem_singleton] at h
    rw [h, hlast]
    omega

/-- The table with one more row. -/
def inserted (database : SqliteActionDatabase) (record : ActionRecord)
    (h : record.key ∉ database.rows.map fun row => row.record.key) : SqliteActionDatabase where
  rows := database.rows ++ [⟨database.nextSequence, record⟩]
  conflicts := database.conflicts
  primaryKey := by
    rw [List.pairwise_append]
    refine ⟨database.primaryKey, List.pairwise_singleton _ _, ?_⟩
    intro row hrow new hnew
    rw [List.mem_singleton] at hnew
    rw [hnew]
    exact lt_nextSequence hrow
  unique := by
    rw [List.map_append, List.nodup_append]
    refine ⟨database.unique, List.nodup_singleton _, ?_⟩
    intro key hkey new hnew
    rw [List.map_singleton, List.mem_singleton] at hnew
    rw [hnew]
    exact fun hc => h (hc ▸ hkey)

/-- `INSERT INTO action_records`. -/
def insertRow (record : ActionRecord) : EStateM ActionError SqliteActionDatabase Unit := do
  let database ← get
  if h : record.key ∈ database.rows.map fun row => row.record.key then throw .constraint
  else set (database.inserted record h)

/-- The rows after `UPDATE action_records … WHERE action_sequence = ?`. -/
def updatedRows (rows : List ActionRow) (sequence : Nat) (record : ActionRecord) :
    List ActionRow :=
  rows.map fun row => if row.sequence = sequence then ⟨sequence, record⟩ else row

theorem updatedRows_sequence (rows : List ActionRow) (sequence : Nat) (record : ActionRecord) :
    (updatedRows rows sequence record).map ActionRow.sequence = rows.map ActionRow.sequence := by
  unfold updatedRows
  rw [List.map_map]
  refine List.map_congr_left fun row _ => ?_
  simp only [Function.comp]
  split
  · rename_i h
    exact h.symm
  · rfl

/-- The table with one row's record replaced. -/
def updated (database : SqliteActionDatabase) (sequence : Nat) (record : ActionRecord)
    (h : ((updatedRows database.rows sequence record).map fun row => row.record.key).Nodup) :
    SqliteActionDatabase where
  rows := updatedRows database.rows sequence record
  conflicts := database.conflicts
  primaryKey := by
    have hkey := database.primaryKey
    rw [← List.pairwise_map] at hkey ⊢
    rw [updatedRows_sequence]
    exact hkey
  unique := h

/-- `updateRecord`. -/
def updateRecord (ctx : ActionContext) (sequence : Nat) (record : ActionRecord) :
    EStateM ActionError SqliteActionDatabase Unit := do
  attempt (assertActionRecord ctx record)
  attempt (assertActionGoalProjectionRecordFits ctx record)
  let database ← get
  if ¬ database.rows.any fun row => row.sequence = sequence then throw .notFound
  else if h : ((updatedRows database.rows sequence record).map fun row => row.record.key).Nodup then
    set (database.updated sequence record h)
  else throw .constraint

/-- `DELETE FROM action_records WHERE action_sequence = ?`; the foreign key cascades to
the conflict keys of the row. -/
def deleteRow (database : SqliteActionDatabase) (row : ActionRow) : SqliteActionDatabase where
  rows := database.rows.filter fun other => other.sequence ≠ row.sequence
  conflicts := database.conflicts.filterEntries fun key owner =>
    !((key.1, owner.actorId, owner.operationId) =
      (row.record.sessionId, row.record.actorId, row.record.operationId))
  primaryKey := database.primaryKey.sublist List.filter_sublist
  unique := database.unique.sublist (List.filter_sublist.map _)

/-! ## Conflict keys -/

def canAcquire (database : SqliteActionDatabase) (record : ActionRecord) : Bool :=
  record.conflictKeys.all fun key =>
    (database.conflicts.get? (record.sessionId, key)).all fun row =>
      row.operationId = record.operationId

/-- `acquire`: `INSERT INTO action_conflicts` for each key, with the primary key and the
foreign key checked. -/
def acquireKeys (record : ActionRecord) :
    List String → EStateM ActionError SqliteActionDatabase Unit
  | [] => return ()
  | key :: rest => do
    let database ← get
    if database.conflicts.has (record.sessionId, key) ||
        !database.rows.any fun row => row.record.key = record.key then throw .constraint
    else do
      set { database with
        conflicts := database.conflicts.set (record.sessionId, key)
          ⟨record.actorId, record.operationId⟩ }
      acquireKeys record rest

def acquire (record : ActionRecord) : EStateM ActionError SqliteActionDatabase Unit :=
  acquireKeys record record.conflictKeys

/-- `release`: `DELETE FROM action_conflicts` for each key the operation owns. -/
def release (database : SqliteActionDatabase) (record : ActionRecord) : SqliteActionDatabase :=
  { database with
    conflicts := record.conflictKeys.foldl
      (fun conflicts key =>
        if (conflicts.get? (record.sessionId, key)).map ConflictRow.operationId =
            some record.operationId then
          conflicts.delete (record.sessionId, key)
        else conflicts)
      database.conflicts }

/-! ## The methods -/

section Methods

variable (ctx : ActionContext) (tables : SqliteRunAuthority)

/-- The byte budget of `rowToRecord`; the bytes of the stored text are those of the
record's JSON. -/
def assertHydrationBudget (record : ActionRecord) : Except ActionError Unit :=
  if record.goalProjection.isNone then .ok ()
  else match ctx.goalProjectionLimits with
    | none => .error (.type "Goal projection limits are required for Action hydration.")
    | some limits =>
      if limits.maxRecordBytes < jsonBytes record.toJson then
        .error (.range "A Goal projection Action exceeds its configured hydration byte budget.")
      else .ok ()

/-- `rowToRecord`. -/
def rowToRecord (row : ActionRow) : Except ActionError ActionRecord := do
  assertHydrationBudget ctx row.record
  assertActionRecord ctx row.record
  return row.record

/-- `selectRow`. -/
def selectRow (database : SqliteActionDatabase) (key : ActionKey) : Option ActionRow :=
  database.rows.find? fun row => row.record.key = key

/-- Hydrate the row that was selected, if there is one. -/
def hydrateRow : Option ActionRow → Except ActionError (Option ActionRecord)
  | none => .ok none
  | some row => some <$> rowToRecord ctx row

/-- `requireRow`. -/
def requireRow (key : ActionKey) : EStateM ActionError SqliteActionDatabase ActionRow := do
  attempt (validateStream key.sessionId key.actorId)
  attempt (assertOpaqueIdentifier key.operationId)
  let database ← get
  match database.selectRow key with
  | none => throw .notFound
  | some row => return row

def isRunOpen (record : ActionRecord) : Except ActionError Bool :=
  isActionRunAuthorityOpen (assertSqliteRunAuthorityOpen tables record.coordinate)

/-- `assertSqliteActionGoalProjectionCapacity`, behind the limits `ensure` requires. -/
def assertCapacity (database : SqliteActionDatabase) (intent : PreparedActionIntent) :
    Except ActionError Unit := do
  if intent.goalProjection.isNone then return ()
  else do
    let limits ← requireGoalProjectionLimits ctx
    if limits.maxPendingPerStream ≤ (database.rows.filter fun row =>
        row.record.inStream ⟨intent.sessionId, intent.actorId⟩ &&
          row.record.projectionPending).length then .error .goalProjectionCapacity
    else return ()

/-- `ensure`. -/
def ensure (intent : PreparedActionIntent) (now : String) :
    EStateM ActionError SqliteActionDatabase ActionRecord := transaction do
  let database ← get
  match ← attempt (hydrateRow ctx (database.selectRow intent.key)) with
  | some existing =>
    if existing.intentFingerprint ≠ intent.intentFingerprint then throw .intentConflict
    else return existing
  | none => do
    attempt (assertCapacity ctx database intent)
    let record := intent.admitted now
    attempt (assertActionRecord ctx record)
    attempt (assertActionGoalProjectionRecordFits ctx record)
    attempt (assertSqliteRunAuthorityOpen tables record.coordinate)
    insertRow record
    return record

/-- `get`. -/
def find (stream : StreamKey) (operationId : String) :
    EStateM ActionError SqliteActionDatabase (Option ActionRecord) := do
  attempt (validateStream stream.sessionId stream.actorId)
  attempt (assertOpaqueIdentifier operationId)
  let database ← get
  attempt (hydrateRow ctx (database.selectRow ⟨stream.sessionId, stream.actorId, operationId⟩))

/-- `selectOldestUnsettled`. -/
def selectOldestUnsettled (stream : StreamKey) (runId : Option String) (replayable : List Nat)
    (database : SqliteActionDatabase) : Except ActionError (Option ActionRecord) :=
  hydrateRow ctx (database.rows.find? fun row =>
    row.record.inStream stream && row.record.inRun runId && row.record.status.unsettled &&
      !replayable.contains row.sequence)

/-- `recoverDelivery`. -/
def recoverDelivery (stream : StreamKey) :
    EStateM ActionError SqliteActionDatabase (Option ActionDelivery) := do
  attempt (validateStream stream.sessionId stream.actorId)
  let database ← get
  let unsettled ← attempt (selectOldestUnsettled ctx stream none [] database)
  return unsettled.map (ActionDelivery.mk .reconcile)

/-- The rows `retireClosedPending` selects. -/
def closedPendingRows (request : ActionClaimRequest) (database : SqliteActionDatabase) :
    List ActionRow :=
  (database.rows.filter fun row =>
    row.record.inStream request.stream && row.record.status = .pending &&
      tables.isClosed row.record.sessionId row.record.actorId row.record.coordinate.runId).take
    request.candidateLimit

/-- The loop of `retireClosedPending`. -/
def retireRows (request : ActionClaimRequest) :
    List ActionRow → EStateM ActionError SqliteActionDatabase Unit
  | [] => return ()
  | row :: rest => do
    let record ← attempt (rowToRecord ctx row)
    if ← attempt (isRunOpen tables record) then
      throw (.type "The closed Action run authority index is inconsistent.")
    else do
      let transition ← attempt (retirePendingActionRecord record request.claimedAt)
      modify fun database => database.release record
      updateRecord ctx row.sequence transition.record
      retireRows request rest

/-- `retireClosedPending`. -/
def retireClosedPending (request : ActionClaimRequest) :
    EStateM ActionError SqliteActionDatabase Bool := do
  let database ← get
  let rows := closedPendingRows tables request database
  retireRows ctx tables request rows
  return !rows.isEmpty

/-- When the claim of a row expires: the column `claim_expires_at`. -/
def ActionRow.claimExpiresAt (row : ActionRow) : Option String :=
  row.record.claim.map ActionClaim.expiresAt

/-- The order of the due claims: `ORDER BY claim_expires_at, action_sequence`. -/
def expiresBefore (left right : ActionRow × String) : Prop :=
  left.2 < right.2 ∨ (left.2 = right.2 ∧ left.1.sequence ≤ right.1.sequence)

instance : DecidableRel expiresBefore := fun _ _ => inferInstanceAs (Decidable (_ ∨ _))

/-- The rows `expireDueClaims` selects. -/
def dueRows (request : ActionClaimRequest) (database : SqliteActionDatabase) : List ActionRow :=
  (((database.rows.filterMap fun row =>
    if row.record.dueFor request then
      row.record.claim.map fun claim => (row, claim.expiresAt)
    else none).insertionSort expiresBefore).take request.candidateLimit).map Prod.fst

/-- The loop of `expireDueClaims`. -/
def expireRows (request : ActionClaimRequest) (replayable : List Nat) (changed : Bool) :
    List ActionRow → EStateM ActionError SqliteActionDatabase (List Nat × Bool)
  | [] => return (replayable, changed)
  | row :: rest => do
    let record ← attempt (rowToRecord ctx row)
    if ← attempt (if record.replayPolicy = .safe then isRunOpen tables record else .ok false) then
      expireRows request (replayable ++ [row.sequence]) changed rest
    else do
      let transition ← attempt (expireActionRecord record request.claimedAt)
      if transition.releaseConflicts then modify fun database => database.release record
      updateRecord ctx row.sequence transition.record
      expireRows request replayable true rest

/-- `expireDueClaims`. -/
def expireDueClaims (request : ActionClaimRequest) :
    EStateM ActionError SqliteActionDatabase (List Nat × Bool) := do
  let database ← get
  expireRows ctx tables request [] false (dueRows request database)

/-- The rows `claimPendingRecord` selects. -/
def claimableRows (request : ActionClaimRequest) (replayable : List Nat)
    (database : SqliteActionDatabase) : List ActionRow :=
  (database.rows.filter fun row =>
    row.record.inStream request.stream && row.record.inRun request.runId &&
      (row.record.status = .pending || replayable.contains row.sequence)).take
    request.candidateLimit

/-- `SQLITE_INTEGER_MAX` of `sqlite-action-journal.ts`. -/
def attemptMax : Nat := 9223372036854775807

/-- The loop of `claimPendingRecord`. -/
def claimRows (request : ActionClaimRequest) :
    List ActionRow → EStateM ActionError SqliteActionDatabase (Option ActionRecord)
  | [] => return none
  | row :: rest => do
    let record ← attempt (rowToRecord ctx row)
    if ← attempt (isRunOpen tables record) then do
      let database ← get
      if !database.canAcquire record then claimRows request rest
      else if record.attempt ≥ attemptMax then throw .attemptExhausted
      else do
        let replay := decide (record.status = .claimed)
        let transition ← attempt
          (if replay then reclaimActionRecord record request
            else claimActionRecord record request)
        if replay then modify fun database => database.release record
        acquire transition.record
        updateRecord ctx row.sequence transition.record
        return some transition.record
    else claimRows request rest

/-- `claimPendingRecord`. -/
def claimPendingRecord (request : ActionClaimRequest) (replayable : List Nat) :
    EStateM ActionError SqliteActionDatabase (Option ActionRecord) := do
  let database ← get
  claimRows ctx tables request (claimableRows request replayable database)

/-- `nextDelivery`. -/
def nextDelivery (request : ActionClaimRequest) :
    EStateM ActionError SqliteActionDatabase ActionDeliverySelection := do
  attempt (validateActionClaimRequest request)
  transaction do
    let retired ← retireClosedPending ctx tables request
    let (replayable, expired) ← expireDueClaims ctx tables request
    let changed := retired || expired
    let database ← get
    match ← attempt
        (selectOldestUnsettled ctx request.stream request.runId replayable database) with
    | some unsettled => return ⟨some ⟨.reconcile, unsettled⟩, changed⟩
    | none => do
      match ← claimPendingRecord ctx tables request replayable with
      | some claimed => return ⟨some ⟨.dispatch, claimed⟩, true⟩
      | none => do
        let database ← get
        let waitingReplay ← attempt
          (selectOldestUnsettled ctx request.stream request.runId [] database)
        return ⟨waitingReplay.map (ActionDelivery.mk .reconcile), changed⟩

/-- Write the outcome of a transition, unless it replayed the record. -/
def store (row : ActionRow) (transition : ActionTransition) :
    EStateM ActionError SqliteActionDatabase ActionRecord := do
  if transition.replayed then return transition.record
  else do
    if transition.releaseConflicts then modify fun database => database.release transition.record
    updateRecord ctx row.sequence transition.record
    return transition.record

/-- `recordReceipt`. -/
def recordReceipt (input : ActionReceiptInput) :
    EStateM ActionError SqliteActionDatabase ActionRecord := transaction do
  let row ← requireRow input.key
  let record ← attempt (rowToRecord ctx row)
  let transition ← attempt (receiptActionRecord record input)
  store ctx row transition

/-- `reconcile`. -/
def reconcile (input : ActionReconcileInput) :
    EStateM ActionError SqliteActionDatabase ActionRecord := transaction do
  let row ← requireRow input.key
  let record ← attempt (rowToRecord ctx row)
  let transition ← attempt (reconcileActionRecord record input)
  if ← attempt (if transition.record.status = .pending then isRunOpen tables record
      else .ok true) then
    store ctx row transition
  else do
    let retired ← attempt (retirePendingActionRecord transition.record input.reconciledAt)
    store ctx row ⟨retired.record, transition.releaseConflicts, false⟩

/-- The rows of a page, with the one behind it. -/
def projectionRows (request : ActionGoalProjectionListRequest) (database : SqliteActionDatabase) :
    List ActionRow :=
  (database.rows.filter fun row =>
    row.record.inStream ⟨request.sessionId, request.actorId⟩ && row.record.projectionPending &&
      request.afterSequence.getD 0 < row.sequence).take (request.limit + 1)

/-- Hydrate the rows of a page. -/
def hydrateCandidates :
    List ActionRow → Except ActionError (List ActionGoalProjectionCandidate)
  | [] => .ok []
  | row :: rest => do
    let record ← rowToRecord ctx row
    let candidates ← hydrateCandidates rest
    return ⟨row.sequence, record⟩ :: candidates

/-- `listGoalProjections`. -/
def listGoalProjections (request : ActionGoalProjectionListRequest) :
    EStateM ActionError SqliteActionDatabase ActionGoalProjectionPage := do
  let limits ← attempt (requireGoalProjectionLimits ctx)
  attempt (captureActionGoalProjectionListRequest request limits)
  if request.afterSequence.getD 0 > attemptMax then return ⟨[], none⟩
  else do
    let database ← get
    let rows := projectionRows request database
    let candidates ← attempt (hydrateCandidates ctx (rows.take request.limit))
    return ⟨candidates, if rows.length > request.limit then
      candidates.getLast?.map ActionGoalProjectionCandidate.sequence else none⟩

/-- `settleGoalProjection`. -/
def settleGoalProjection (input : ActionGoalProjectionSettlementInput) :
    EStateM ActionError SqliteActionDatabase ActionRecord := do
  let _ ← attempt (requireGoalProjectionLimits ctx)
  transaction do
    let row ← requireRow input.key
    let record ← attempt (rowToRecord ctx row)
    let settled ← attempt (settleActionGoalProjectionRecord record input)
    if settled.replayed then return record
    else do
      updateRecord ctx row.sequence settled.record
      return settled.record

/-- The order of a purge: `ORDER BY updatedAt, action_sequence`. -/
def purgeBefore (left right : ActionRow) : Prop :=
  left.record.updatedAt < right.record.updatedAt ∨
    (left.record.updatedAt = right.record.updatedAt ∧ left.sequence ≤ right.sequence)

instance : DecidableRel purgeBefore := fun _ _ => inferInstanceAs (Decidable (_ ∨ _))

/-- The rows `purgeTerminal` selects. -/
def purgeRows (request : ActionTerminalPurgeRequest) (database : SqliteActionDatabase) :
    List ActionRow :=
  ((database.rows.filter fun row => row.record.purgeable request).insertionSort purgeBefore).take
    request.limit

/-- `purgeTerminal`. -/
def purgeTerminal (request : ActionTerminalPurgeRequest) :
    EStateM ActionError SqliteActionDatabase (List String) := do
  attempt (captureActionTerminalPurgeRequest request)
  let database ← get
  let rows := database.purgeRows request
  set (rows.foldl deleteRow database)
  return rows.map fun row => row.record.operationId

/-- One call and what it answers. -/
def call (operation : ActionOperation) : EStateM ActionError SqliteActionDatabase ActionAnswer :=
  match operation with
  | .ensure intent now => ActionAnswer.record <$> ensure ctx tables intent now
  | .get stream operationId => ActionAnswer.found <$> find ctx stream operationId
  | .recoverDelivery stream => ActionAnswer.recovery <$> recoverDelivery ctx stream
  | .nextDelivery request => ActionAnswer.selection <$> nextDelivery ctx tables request
  | .recordReceipt input => ActionAnswer.record <$> recordReceipt ctx input
  | .reconcile input => ActionAnswer.record <$> reconcile ctx tables input
  | .listGoalProjections request => ActionAnswer.page <$> listGoalProjections ctx request
  | .settleGoalProjection input => ActionAnswer.record <$> settleGoalProjection ctx input
  | .purgeTerminal request => ActionAnswer.purged <$> purgeTerminal request

end Methods

end SqliteActionDatabase

end OpenGameAgent
