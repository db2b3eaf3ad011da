import OpenGameAgent.Actions.Validation
import OpenGameAgent.Library.Run

/-!
# Transitions of an Action record

`packages/actions/src/transitions.ts`, and what each function can do to a record.

The functions that replay a receipt return the record they were given, and their
callers compare the two by identity: `ActionTransition.replayed` says so here.

* `ActionMove` — the nine ways a record changes, and `Moves` what each of them asks
  and does.
* the `_eq_ok_iff` lemmas — a transition function succeeds exactly as such a move, or
  replays.
-/

namespace OpenGameAgent

/-- `ActionTransition`; `replayed` is `transition.record === record`. -/
structure ActionTransition where
  record : ActionRecord
  releaseConflicts : Bool
  replayed : Bool

/-! ## The functions -/

/-- The record `claimActionRecord` makes. -/
def ActionRecord.claimedBy (record : ActionRecord) (request : ActionClaimRequest) : ActionRecord :=
  { record with
    status := .claimed
    attempt := record.attempt + 1
    updatedAt := request.claimedAt
    claim := some
      { claimToken := request.claimToken
        claimantId := request.claimantId
        attempt := record.attempt + 1
        claimedAt := request.claimedAt
        expiresAt := request.expiresAt } }

/-- `claimActionRecord`. -/
def claimActionRecord (record : ActionRecord) (request : ActionClaimRequest) :
    Except ActionError ActionTransition := do
  validateActionClaimRequest request
  if record.status ≠ .pending then .error .stateConflict
  else return ⟨record.claimedBy request, false, false⟩

/-- `prepareReceipt`. -/
def prepareReceipt (input : ActionReceiptInput) : ActionReceipt where
  operationId := input.operationId
  claimToken := input.claimToken
  attempt := input.attempt
  outcome := input.outcome
  receivedAt := input.receivedAt
  result := input.result
  modelResult := input.modelResult
  authorityAfter := input.authorityAfter

/-- `receiptSemantics`: all of a receipt but the time it arrived. -/
def receiptSemantics (r : ActionReceipt) : List UInt16 :=
  canonicalizeJsonValue (.record
    [("operationId", some (.text r.operationId)), ("claimToken", some (.text r.claimToken)),
      ("attempt", some (.text (toString r.attempt))), ("outcome", some (.text r.outcome.text)),
      ("result", r.result), ("modelResult", r.modelResult),
      ("authorityAfter", r.authorityAfter.map ActionAuthority.toJson)])

/-- `replayReceipt`, for the receipt a record holds. -/
def replayReceipt (record : ActionRecord) (recorded receipt : ActionReceipt) :
    Except ActionError ActionTransition :=
  if recorded.claimToken ≠ receipt.claimToken ∨ recorded.attempt ≠ receipt.attempt then
    .error .claimConflict
  else if receiptSemantics recorded ≠ receiptSemantics receipt then .error .stateConflict
  else .ok ⟨record, false, true⟩

/-- The record with a receipt; its claim stays while the outcome is uncertain. -/
def ActionRecord.receiving (record : ActionRecord) (status : ActionStatus) (updatedAt : String)
    (receipt : ActionReceipt) : ActionRecord :=
  { record with
    status := status
    updatedAt := updatedAt
    receipt := some receipt
    claim := if status = .uncertain then record.claim else none }

def ReceiptOutcome.status : ReceiptOutcome → ActionStatus
  | .succeeded => .succeeded
  | .rejected => .failed
  | .unknown => .uncertain

/-- `receiptActionRecord`. -/
def receiptActionRecord (record : ActionRecord) (input : ActionReceiptInput) :
    Except ActionError ActionTransition := do
  validateActionReceiptInput input
  if record.claim.any fun c => c.claimToken ≠ input.claimToken || c.attempt ≠ input.attempt then
    .error .claimConflict
  else
    match record.receipt.filter fun r => record.claim.isNone ||
        (r.claimToken = input.claimToken && r.attempt = input.attempt) with
    | some recorded => replayReceipt record recorded (prepareReceipt input)
    | none =>
      if (record.status ≠ .claimed ∧ record.status ≠ .uncertain) ∨ record.claim.isNone then
        .error .stateConflict
      else
        let status := input.outcome.status
        return ⟨record.receiving status input.receivedAt (prepareReceipt input),
          status ≠ .uncertain, false⟩

def ReconcileResolution.outcome : ReconcileResolution → ReceiptOutcome
  | .applied => .succeeded
  | .notApplied => .rejected
  | .unknown => .unknown

/-- The receipt `reconcileActionRecord` prepares. -/
def ActionReconcileInput.receipt (input : ActionReconcileInput) : ActionReceipt where
  operationId := input.operationId
  claimToken := input.claimToken
  attempt := input.attempt
  outcome := input.resolution.outcome
  receivedAt := input.reconciledAt
  result := input.result
  modelResult := input.modelResult
  authorityAfter := input.authorityAfter

/-- The status a reconciliation leads to. -/
def ActionReconcileInput.status (input : ActionReconcileInput) (policy : ActionReplayPolicy) :
    ActionStatus :=
  match input.resolution with
  | .unknown => .uncertain
  | .applied => .succeeded
  | .notApplied => if policy ≠ .never then .pending else .failed

/-- The tail of `reconcileActionRecord`, once the input is known to be new. -/
def applyReconciliation (record : ActionRecord) (input : ActionReconcileInput) :
    ActionTransition :=
  let status := input.status record.replayPolicy
  ⟨record.receiving status input.reconciledAt input.receipt, status ≠ .uncertain, false⟩

/-- `reconcileActionRecord`. -/
def reconcileActionRecord (record : ActionRecord) (input : ActionReconcileInput) :
    Except ActionError ActionTransition := do
  validateActionReconcileInput input
  match record.claim with
  | none =>
    match record.receipt with
    | some recorded => replayReceipt record recorded input.receipt
    | none => .error .stateConflict
  | some claim =>
    if claim.claimToken ≠ input.claimToken ∨ claim.attempt ≠ input.attempt then
      .error .claimConflict
    else if record.status ≠ .claimed ∧ record.status ≠ .uncertain then .error .stateConflict
    else
      match record.receipt.filter fun r =>
          r.claimToken = input.claimToken && r.attempt = input.attempt with
      | none => return applyReconciliation record input
      | some recorded =>
        if receiptSemantics recorded = receiptSemantics input.receipt then
          return ⟨record, false, true⟩
        else if input.resolution = .unknown ∨ recorded.outcome ≠ .unknown then
          .error .stateConflict
        else return applyReconciliation record input

/-- `reclaimActionRecord`. -/
def reclaimActionRecord (record : ActionRecord) (request : ActionClaimRequest) :
    Except ActionError ActionTransition :=
  if record.status ≠ .claimed ∨ record.replayPolicy ≠ .safe ∨
      ¬ record.claim.any fun c => c.expiresAt ≤ request.claimedAt then .error .stateConflict
  else claimActionRecord { record with status := .pending } request

/-- The record `expireActionRecord` makes; the claim stays. -/
def ActionRecord.expiredAt (record : ActionRecord) (now : String) : ActionRecord :=
  { record with status := .uncertain, updatedAt := now }

/-- `expireActionRecord`. -/
def expireActionRecord (record : ActionRecord) (now : String) :
    Except ActionError ActionTransition := do
  validateTimestamp now
  if record.status ≠ .claimed ∨ ¬ record.claim.any fun c => c.expiresAt ≤ now then
    .error .stateConflict
  else return ⟨record.expiredAt now, false, false⟩

/-- The record `retirePendingActionRecord` makes. -/
def ActionRecord.retiredAt (record : ActionRecord) (now : String) : ActionRecord :=
  { record with status := .failed, updatedAt := now }

/-- `retirePendingActionRecord`. -/
def retirePendingActionRecord (record : ActionRecord) (now : String) :
    Except ActionError ActionTransition := do
  validateTimestamp now
  if record.status ≠ .pending ∨ ¬ hasKnownUnappliedActionOutcome record then .error .stateConflict
  else return ⟨record.retiredAt now, true, false⟩

/-- Does the record's end agree with the outcome that is to be settled? -/
def ActionRecord.settlesAs (record : ActionRecord) : SettlementOutcome → Bool
  | .advanced => record.status = .succeeded && record.receipt.any (·.outcome = .succeeded)
  | .sourceFailed => isActionSourceFailed record

/-- The record `settleActionGoalProjectionRecord` makes. -/
def ActionRecord.settledAs (record : ActionRecord) (outcome : SettlementOutcome)
    (settledAt : String) : ActionRecord :=
  { record with
    updatedAt := settledAt
    goalProjectionSettlement := some ⟨outcome, settledAt⟩ }

/-- `settleActionGoalProjectionRecord`; it returns the record alone, and no conflict key. -/
def settleActionGoalProjectionRecord (record : ActionRecord)
    (input : ActionGoalProjectionSettlementInput) : Except ActionError ActionTransition := do
  validateTimestamp input.settledAt
  if record.intentFingerprint ≠ input.intentFingerprint then .error .intentConflict
  else
    match record.goalProjectionSettlement with
    | some settlement =>
      if settlement.outcome ≠ input.outcome then .error .stateConflict
      else return ⟨record, false, true⟩
    | none =>
      if record.goalProjection.isNone ∨ ¬ record.settlesAs input.outcome then
        .error .stateConflict
      else return ⟨record.settledAs input.outcome input.settledAt, false, false⟩

/-! ## Moves -/

/-- The ways a record changes. -/
inductive ActionMove where
  | claim (request : ActionClaimRequest)
  | reclaim (request : ActionClaimRequest)
  | receipt (input : ActionReceiptInput)
  | reconcile (input : ActionReconcileInput)
  | expire (now : String)
  | retire (now : String)
  | settle (input : ActionGoalProjectionSettlementInput)

/-- The claim that a token and an attempt name is the record's. -/
def ActionRecord.HoldsClaim (record : ActionRecord) (claimToken : String) (attempt : Nat) : Prop :=
  ∃ claim, record.claim = some claim ∧ claim.claimToken = claimToken ∧ claim.attempt = attempt

/-- The record's lease has run out. -/
def ActionRecord.Due (record : ActionRecord) (now : String) : Prop :=
  ∃ claim, record.claim = some claim ∧ claim.expiresAt ≤ now

/-- A receipt of this claim is not recorded yet. -/
def ActionRecord.Unanswered (record : ActionRecord) (claimToken : String) (attempt : Nat) : Prop :=
  ∀ recorded, record.receipt = some recorded →
    ¬ (recorded.claimToken = claimToken ∧ recorded.attempt = attempt)

/-- What a move asks of a record and makes of it. -/
inductive Moves (record : ActionRecord) : ActionMove → ActionRecord → Prop
  | claim {request : ActionClaimRequest} (valid : validateActionClaimRequest request = .ok ())
      (pending : record.status = .pending) : Moves record (.claim request) (record.claimedBy request)
  | reclaim {request : ActionClaimRequest} (valid : validateActionClaimRequest request = .ok ())
      (claimed : record.status = .claimed) (safe : record.replayPolicy = .safe)
      (due : record.Due request.claimedAt) :
      Moves record (.reclaim request) (record.claimedBy request)
  | receipt {input : ActionReceiptInput} (valid : validateActionReceiptInput input = .ok ())
      (unsettled : record.status.unsettled = true)
      (holds : record.HoldsClaim input.claimToken input.attempt)
      (unanswered : record.Unanswered input.claimToken input.attempt) :
      Moves record (.receipt input)
        (record.receiving input.outcome.status input.receivedAt (prepareReceipt input))
  | reconcile {input : ActionReconcileInput} (valid : validateActionReconcileInput input = .ok ())
      (unsettled : record.status.unsettled = true)
      (holds : record.HoldsClaim input.claimToken input.attempt)
      (open_ : record.Unanswered input.claimToken input.attempt ∨
        ∃ recorded, record.receipt = some recorded ∧ recorded.outcome = .unknown) :
      Moves record (.reconcile input)
        (record.receiving (input.status record.replayPolicy) input.reconciledAt input.receipt)
  | expire {now : String} (valid : isCanonicalTimestamp now = true)
      (claimed : record.status = .claimed) (due : record.Due now) :
      Moves record (.expire now) (record.expiredAt now)
  | retire {now : String} (valid : isCanonicalTimestamp now = true)
      (pending : record.status = .pending) (unapplied : hasKnownUnappliedActionOutcome record) :
      Moves record (.retire now) (record.retiredAt now)
  | settle {input : ActionGoalProjectionSettlementInput}
      (valid : isCanonicalTimestamp input.settledAt = true)
      (fingerprint : record.intentFingerprint = input.intentFingerprint)
      (unsettled : record.goalProjectionSettlement = none)
      (projected : record.goalProjection.isSome) (source : record.settlesAs input.outcome) :
      Moves record (.settle input) (record.settledAs input.outcome input.settledAt)

/-! ## Each function is a move -/

variable {record : ActionRecord} {transition : ActionTransition}

theorem validateTimestamp_eq_ok_iff {value : String} :
    validateTimestamp value = .ok () ↔ isCanonicalTimestamp value = true := by
  unfold validateTimestamp
  split <;> simp_all

theorem unsettled_iff {status : ActionStatus} :
    status.unsettled = true ↔ status = .claimed ∨ status = .uncertain := by
  cases status <;> simp [ActionStatus.unsettled]

theorem claimActionRecord_eq_ok_iff {request : ActionClaimRequest} :
    claimActionRecord record request = .ok transition ↔
      validateActionClaimRequest request = .ok () ∧ record.status = .pending ∧
        transition = ⟨record.claimedBy request, false, false⟩ := by
  unfold claimActionRecord
  rw [check_eq_ok]
  split
  · rename_i h
    simp [h]
  · rename_i h
    rw [not_not] at h
    simp only [h, true_and, return_eq_ok]

theorem due_iff {now : String} :
    (record.claim.any fun c => decide (c.expiresAt ≤ now)) = true ↔ record.Due now := by
  unfold ActionRecord.Due
  cases record.claim <;> simp

theorem reclaimActionRecord_eq_ok_iff {request : ActionClaimRequest} :
    reclaimActionRecord record request = .ok transition ↔
      validateActionClaimRequest request = .ok () ∧ record.status = .claimed ∧
        record.replayPolicy = .safe ∧ record.Due request.claimedAt ∧
        transition = ⟨record.claimedBy request, false, false⟩ := by
  unfold reclaimActionRecord
  split
  · rename_i h
    rw [due_iff] at h
    simp only [reduceCtorEq, false_iff]
    rintro ⟨-, hclaimed, hsafe, hdue, -⟩
    rcases h with h | h | h
    · exact h hclaimed
    · exact h hsafe
    · exact h hdue
  · rename_i h
    rw [due_iff, not_or, not_or, not_not, not_not, not_not] at h
    rw [claimActionRecord_eq_ok_iff]
    simp only [h, true_and]
    rfl

theorem expireActionRecord_eq_ok_iff {now : String} :
    expireActionRecord record now = .ok transition ↔
      isCanonicalTimestamp now = true ∧ record.status = .claimed ∧ record.Due now ∧
        transition = ⟨record.expiredAt now, false, false⟩ := by
  unfold expireActionRecord
  rw [check_eq_ok, validateTimestamp_eq_ok_iff]
  split
  · rename_i h
    rw [due_iff] at h
    simp only [reduceCtorEq, and_false, false_iff]
    rintro ⟨-, hclaimed, hdue, -⟩
    rcases h with h | h
    · exact h hclaimed
    · exact h hdue
  · rename_i h
    rw [due_iff, not_or, not_not, not_not] at h
    simp only [h, true_and, return_eq_ok]

theorem retirePendingActionRecord_eq_ok_iff {now : String} :
    retirePendingActionRecord record now = .ok transition ↔
      isCanonicalTimestamp now = true ∧ record.status = .pending ∧
        hasKnownUnappliedActionOutcome record = true ∧
        transition = ⟨record.retiredAt now, true, false⟩ := by
  unfold retirePendingActionRecord
  rw [check_eq_ok, validateTimestamp_eq_ok_iff]
  split
  · rename_i h
    simp only [reduceCtorEq, and_false, false_iff]
    rintro ⟨-, hpending, hunapplied, -⟩
    rcases h with h | h
    · exact h hpending
    · exact h hunapplied
  · rename_i h
    simp only [not_or, not_not] at h
    simp only [h, true_and, return_eq_ok]

/-- The record's claim, if it has one, is the one a token and an attempt name. -/
theorem holdsClaim_of_not_any {claimToken : String} {attempt : Nat}
    (h : ¬ (record.claim.any fun c => c.claimToken ≠ claimToken || c.attempt ≠ attempt) = true)
    (hclaim : ¬ record.claim.isNone = true) : record.HoldsClaim claimToken attempt := by
  unfold ActionRecord.HoldsClaim
  cases hc : record.claim with
  | none => simp [hc] at hclaim
  | some claim =>
    simp only [hc, Option.any_some, Bool.or_eq_true, decide_eq_true_eq, not_or, not_not,
      ne_eq] at h
    exact ⟨claim, rfl, h.1, h.2⟩

/-- The receipt functions answer a receipt that the record holds already. -/
def ActionRecord.Recorded (record : ActionRecord) (receipt : ActionReceipt) : Prop :=
  ∃ recorded, record.receipt = some recorded ∧ recorded.claimToken = receipt.claimToken ∧
    recorded.attempt = receipt.attempt ∧ receiptSemantics recorded = receiptSemantics receipt

theorem replayReceipt_eq_ok_iff {recorded receipt : ActionReceipt} :
    replayReceipt record recorded receipt = .ok transition ↔
      recorded.claimToken = receipt.claimToken ∧ recorded.attempt = receipt.attempt ∧
        receiptSemantics recorded = receiptSemantics receipt ∧ transition = ⟨record, false, true⟩ := by
  unfold replayReceipt
  split
  · rename_i h
    simp only [reduceCtorEq, false_iff]
    rintro ⟨htoken, hattempt, -⟩
    rcases h with h | h
    · exact h htoken
    · exact h hattempt
  · rename_i h
    simp only [not_or, not_not] at h
    split
    · rename_i hs
      simp [hs]
    · rename_i hs
      rw [not_not] at hs
      simp only [h, hs, true_and, Except.ok.injEq, eq_comm]

/-- A receipt is replayed, or it moves the record. -/
theorem receiptActionRecord_cases {input : ActionReceiptInput}
    (h : receiptActionRecord record input = .ok transition) :
    (transition = ⟨record, false, true⟩ ∧ record.Recorded (prepareReceipt input) ∧
        (record.claim = none ∨ record.HoldsClaim input.claimToken input.attempt)) ∨
      (Moves record (.receipt input) transition.record ∧ transition.replayed = false ∧
        transition.releaseConflicts = !transition.record.status.unsettled) := by
  unfold receiptActionRecord at h
  rw [check_eq_ok] at h
  obtain ⟨hvalid, h⟩ := h
  split at h
  · cases h
  · rename_i hclaim
    split at h
    · rename_i recorded hrecorded
      obtain ⟨htoken, hattempt, hsame, rfl⟩ := replayReceipt_eq_ok_iff.1 h
      obtain ⟨hreceipt, -⟩ := Option.filter_eq_some_iff.1 hrecorded
      refine Or.inl ⟨rfl, ⟨recorded, hreceipt, htoken, hattempt, hsame⟩, ?_⟩
      by_cases hnone : record.claim = none
      · exact Or.inl hnone
      · exact Or.inr (holdsClaim_of_not_any hclaim (by simpa using hnone))
    · rename_i hrecorded
      split at h
      · cases h
      · rename_i hstatus
        simp only [not_or, not_and, not_not] at hstatus
        obtain ⟨hstatus, hnone⟩ := hstatus
        cases h
        right
        have hholds := holdsClaim_of_not_any hclaim hnone
        refine ⟨Moves.receipt hvalid ?_ hholds ?_, rfl, ?_⟩
        · by_cases hc : record.status = .claimed
          · rw [hc]; rfl
          · rw [hstatus hc]; rfl
        · intro recorded hreceipt hmatch
          rw [hreceipt, Option.filter_eq_none_iff] at hrecorded
          simpa [hmatch] using hrecorded recorded rfl
        · show decide _ = !(input.outcome.status).unsettled
          cases input.outcome <;> rfl

/-- A reconciliation is replayed, or it moves the record. -/
theorem reconcileActionRecord_cases {input : ActionReconcileInput}
    (h : reconcileActionRecord record input = .ok transition) :
    (transition = ⟨record, false, true⟩ ∧ record.Recorded input.receipt ∧
        (record.claim = none ∨ record.HoldsClaim input.claimToken input.attempt)) ∨
      (Moves record (.reconcile input) transition.record ∧ transition.replayed = false ∧
        transition.releaseConflicts = !transition.record.status.unsettled) := by
  unfold reconcileActionRecord at h
  rw [check_eq_ok] at h
  obtain ⟨hvalid, h⟩ := h
  split at h
  · rename_i hnone
    split at h
    · rename_i recorded hreceipt
      obtain ⟨htoken, hattempt, hsame, rfl⟩ := replayReceipt_eq_ok_iff.1 h
      exact Or.inl ⟨rfl, ⟨recorded, hreceipt, htoken, hattempt, hsame⟩, Or.inl hnone⟩
    · cases h
  · rename_i claim hclaim
    split at h
    · cases h
    · rename_i hmatch
      simp only [not_or, not_not] at hmatch
      have hholds : record.HoldsClaim input.claimToken input.attempt :=
        ⟨claim, hclaim, hmatch.1, hmatch.2⟩
      split at h
      · cases h
      · rename_i hstatus
        have hunsettled : record.status.unsettled = true := by
          rw [unsettled_iff]
          by_contra hc
          rw [not_or] at hc
          exact hstatus hc
        have hrelease : (applyReconciliation record input).releaseConflicts =
            !(applyReconciliation record input).record.status.unsettled := by
          show decide (input.status record.replayPolicy ≠ .uncertain) =
            !(input.status record.replayPolicy).unsettled
          unfold ActionReconcileInput.status
          cases input.resolution with
          | notApplied => by_cases hp : record.replayPolicy = .never <;> simp [hp, ActionStatus.unsettled]
          | _ => rfl
        split at h
        · rename_i hrecorded
          cases h
          right
          refine ⟨Moves.reconcile hvalid hunsettled hholds (Or.inl ?_), rfl, hrelease⟩
          intro recorded hreceipt hsame
          rw [hreceipt, Option.filter_eq_none_iff] at hrecorded
          simpa [hsame] using hrecorded recorded rfl
        · rename_i recorded hrecorded
          obtain ⟨hreceipt, hsame⟩ := Option.filter_eq_some_iff.1 hrecorded
          simp only [Bool.and_eq_true, decide_eq_true_eq] at hsame
          split at h
          · rename_i hsemantics
            cases h
            exact Or.inl ⟨rfl, ⟨recorded, hreceipt, hsame.1, hsame.2, hsemantics⟩, Or.inr hholds⟩
          · split at h
            · cases h
            · rename_i hunknown
              simp only [not_or, not_not] at hunknown
              cases h
              exact Or.inr ⟨Moves.reconcile hvalid hunsettled hholds
                (Or.inr ⟨recorded, hreceipt, hunknown.2⟩), rfl, hrelease⟩

/-- The record takes a receipt: it answers the current claim, or without a claim it is
the recorded receipt again. -/
def ActionRecord.Accepts (record : ActionRecord) (claimToken : String) (attempt : Nat)
    (receipt : ActionReceipt) : Prop :=
  record.HoldsClaim claimToken attempt ∨ (record.claim = none ∧ record.Recorded receipt)

theorem Moves.receipt_holds {input : ActionReceiptInput} {moved : ActionRecord}
    (h : Moves record (.receipt input) moved) :
    record.HoldsClaim input.claimToken input.attempt := by
  cases h with
  | receipt valid unsettled holds unanswered => exact holds

theorem Moves.reconcile_holds {input : ActionReconcileInput} {moved : ActionRecord}
    (h : Moves record (.reconcile input) moved) :
    record.HoldsClaim input.claimToken input.attempt := by
  cases h with
  | reconcile valid unsettled holds open_ => exact holds

theorem receiptActionRecord_accepts {input : ActionReceiptInput}
    (h : receiptActionRecord record input = .ok transition) :
    record.Accepts input.claimToken input.attempt (prepareReceipt input) := by
  rcases receiptActionRecord_cases h with ⟨-, hrecorded, hnone | hholds⟩ | ⟨hmoves, -⟩
  · exact Or.inr ⟨hnone, hrecorded⟩
  · exact Or.inl hholds
  · exact Or.inl hmoves.receipt_holds

theorem reconcileActionRecord_accepts {input : ActionReconcileInput}
    (h : reconcileActionRecord record input = .ok transition) :
    record.Accepts input.claimToken input.attempt input.receipt := by
  rcases reconcileActionRecord_cases h with ⟨-, hrecorded, hnone | hholds⟩ | ⟨hmoves, -⟩
  · exact Or.inr ⟨hnone, hrecorded⟩
  · exact Or.inl hholds
  · exact Or.inl hmoves.reconcile_holds

/-- A settlement is replayed, or it moves the record. -/
theorem settleActionGoalProjectionRecord_cases {input : ActionGoalProjectionSettlementInput}
    (h : settleActionGoalProjectionRecord record input = .ok transition) :
    transition = ⟨record, false, true⟩ ∨
      (Moves record (.settle input) transition.record ∧ transition.replayed = false) := by
  unfold settleActionGoalProjectionRecord at h
  rw [check_eq_ok, validateTimestamp_eq_ok_iff] at h
  obtain ⟨hvalid, h⟩ := h
  split at h
  · cases h
  · rename_i hfingerprint
    rw [not_not] at hfingerprint
    split at h
    · split at h
      · cases h
      · cases h
        exact Or.inl rfl
    · rename_i hnone
      split at h
      · cases h
      · rename_i hsource
        rw [not_or, not_not] at hsource
        cases h
        exact Or.inr ⟨Moves.settle hvalid hfingerprint hnone (by simpa [Option.isSome_iff_ne_none]
          using hsource.1) hsource.2, rfl⟩

end OpenGameAgent
