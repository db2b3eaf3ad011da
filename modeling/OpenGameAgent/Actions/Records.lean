import OpenGameAgent.Actions.Transitions

/-!
# Valid records stay valid

`ActionRecord.Valid` is what `assertActionRecord` checks, one field a check.  The lemmas say
what the checks of a record make of the fields that a move leaves as they were.
-/

namespace OpenGameAgent

/-- What `assertActionRecord` checks. -/
structure ActionRecord.Valid (ctx : ActionContext) (r : ActionRecord) : Prop where
  schema : r.fitsSchema = true
  identity : assertPreparedIntent ctx r.toPreparedActionIntent = .ok ()
  timestamps : r.timestampsCanonical = true
  claim : r.claimConsistent = true
  receipt : (r.receipt.all fun receipt => receipt.operationId = r.operationId) = true
  outcome : r.outcomeConsistent = true
  settlement : r.settlementConsistent = true

variable {ctx : ActionContext} {r moved : ActionRecord}

theorem assertActionRecord_eq_ok_iff : assertActionRecord ctx r = .ok () ↔ r.Valid ctx := by
  unfold assertActionRecord assertActionRecordEnvelope
  rw [check_eq_ok, check_eq_ok]
  constructor
  · rintro ⟨hschema, hidentity, hrest⟩
    split at hschema
    · rename_i hs
      split at hrest
      · rename_i hr
        simp only [Bool.and_eq_true] at hr
        obtain ⟨⟨⟨⟨ht, hc⟩, ho⟩, hu⟩, hx⟩ := hr
        exact ⟨hs, hidentity, ht, hc, ho, hu, hx⟩
      · cases hrest
    · cases hschema
  · intro h
    refine ⟨by rw [if_pos h.schema], h.identity, ?_⟩
    rw [if_pos]
    · rfl
    · simp only [Bool.and_eq_true]
      exact ⟨⟨⟨⟨h.timestamps, h.claim⟩, h.receipt⟩, h.outcome⟩, h.settlement⟩

/-! ## What a request promises -/

theorem hasTimestampPattern_of_canonical {s : String} (h : isCanonicalTimestamp s = true) :
    hasTimestampPattern s = true := by
  unfold isCanonicalTimestamp at h
  unfold hasTimestampPattern
  cases hdate : timestampDate s with
  | none => rw [hdate] at h; cases h
  | some date => rfl

theorem assertOpaqueIdentifier_eq_ok_iff {value : String} :
    assertOpaqueIdentifier value = .ok () ↔ isOpaqueIdentifier value = true := by
  unfold assertOpaqueIdentifier
  split <;> simp_all

theorem assertOpaqueIdentifiers_eq_ok_iff {values : List String} :
    assertOpaqueIdentifiers values = .ok () ↔ ∀ value ∈ values, isOpaqueIdentifier value = true := by
  induction values with
  | nil => simp [assertOpaqueIdentifiers]
  | cons value rest ih =>
    unfold assertOpaqueIdentifiers
    rw [check_eq_ok, assertOpaqueIdentifier_eq_ok_iff, ih]
    simp

/-- What a claim request has to be. -/
structure ActionClaimRequest.Valid (request : ActionClaimRequest) : Prop where
  claimToken : isOpaqueIdentifier request.claimToken = true
  claimantId : isOpaqueIdentifier request.claimantId = true
  claimedAt : isCanonicalTimestamp request.claimedAt = true
  expiresAt : isCanonicalTimestamp request.expiresAt = true
  lease : request.claimedAt < request.expiresAt
  candidateLimit : 0 < request.candidateLimit

theorem validateActionClaimRequest_valid {request : ActionClaimRequest}
    (h : validateActionClaimRequest request = .ok ()) : request.Valid := by
  unfold validateActionClaimRequest at h
  rw [check_eq_ok, check_eq_ok, check_eq_ok] at h
  obtain ⟨hids, hclaimed, hexpires, h⟩ := h
  rw [assertOpaqueIdentifiers_eq_ok_iff] at hids
  rw [validateTimestamp_eq_ok_iff] at hclaimed hexpires
  split at h
  · cases h
  · rename_i hlease
    unfold assertPositiveSafeInteger at h
    split at h
    · rename_i hpositive
      exact ⟨hids _ (by simp), hids _ (by simp), hclaimed, hexpires, not_le.1 hlease, hpositive.1⟩
    · cases h

/-! ## Moves -/

theorem fitsSchema_iff : r.fitsSchema = true ↔ r.toPreparedActionIntent.fitsSchema = true ∧
    hasTimestampPattern r.createdAt = true ∧ hasTimestampPattern r.updatedAt = true ∧
    r.claim.all ActionClaim.fitsSchema = true ∧ r.receipt.all ActionReceipt.fitsSchema = true ∧
    (r.goalProjectionSettlement.all fun s => hasTimestampPattern s.settledAt) = true := by
  unfold ActionRecord.fitsSchema
  simp only [Bool.and_eq_true, and_assoc]

theorem timestampsCanonical_iff : r.timestampsCanonical = true ↔
    isCanonicalTimestamp r.createdAt = true ∧ isCanonicalTimestamp r.updatedAt = true ∧
    (r.claim.all fun c => isCanonicalTimestamp c.claimedAt && isCanonicalTimestamp c.expiresAt) =
      true ∧
    (r.receipt.all fun receipt => isCanonicalTimestamp receipt.receivedAt) = true ∧
    (r.goalProjectionSettlement.all fun s => isCanonicalTimestamp s.settledAt) = true := by
  unfold ActionRecord.timestampsCanonical
  simp only [Bool.and_eq_true, and_assoc]

namespace ActionRecord.Valid

/-- A pending or failed record is known to be unapplied. -/
theorem unapplied (h : r.Valid ctx) (hstatus : r.status = .pending ∨ r.status = .failed) :
    hasKnownUnappliedActionOutcome r = true := by
  have houtcome := h.outcome
  unfold ActionRecord.outcomeConsistent at houtcome
  rcases hstatus with hs | hs <;> simpa [hs] using houtcome

/-- Only the status and the time change, and the record stays claimed or is known to be
unapplied. -/
theorem restatus (h : r.Valid ctx) {status : ActionStatus} {now : String}
    (hnow : isCanonicalTimestamp now = true) (hnone : r.goalProjectionSettlement = none)
    (hunsettled : status.unsettled = r.status.unsettled)
    (hunapplied : status = .pending ∨ status = .failed →
      hasKnownUnappliedActionOutcome r = true) :
    ActionRecord.Valid ctx { r with status := status, updatedAt := now } := by
  obtain ⟨hintent, hcreated, -, hfits, hreceipt, hsettlement⟩ := fitsSchema_iff.1 h.schema
  obtain ⟨hcreated', -, hclaim, hreceived, hsettled⟩ := timestampsCanonical_iff.1 h.timestamps
  constructor
  case schema =>
    exact fitsSchema_iff.2 ⟨hintent, hcreated, hasTimestampPattern_of_canonical hnow, hfits,
      hreceipt, hsettlement⟩
  case identity => exact h.identity
  case timestamps =>
    exact timestampsCanonical_iff.2 ⟨hcreated', hnow, hclaim, hreceived, hsettled⟩
  case claim =>
    have hconsistent := h.claim
    unfold ActionRecord.claimConsistent at hconsistent ⊢
    rw [hunsettled]
    exact hconsistent
  case receipt => exact h.receipt
  case outcome =>
    unfold ActionRecord.outcomeConsistent
    by_cases hs : status = .pending ∨ status = .failed
    · have hknown := hunapplied hs
      unfold hasKnownUnappliedActionOutcome at hknown ⊢
      rw [Bool.or_eq_true]
      exact Or.inr hknown
    · rw [not_or] at hs
      simp [hs]
  case settlement => simp [ActionRecord.settlementConsistent, hnone]

/-- A failed record is settled. -/
theorem settledAs (h : r.Valid ctx) {settledAt : String} (hnow : isCanonicalTimestamp settledAt = true)
    (hprojected : r.goalProjection.isSome = true) (hfailed : isActionSourceFailed r = true)
    (hreceipt : r.receipt = none) : (r.settledAs .sourceFailed settledAt).Valid ctx := by
  obtain ⟨hintent, hcreated, -, hclaim, hreceived, -⟩ := fitsSchema_iff.1 h.schema
  obtain ⟨hcreated', -, hclaimed, hreceived', -⟩ := timestampsCanonical_iff.1 h.timestamps
  have hpattern := hasTimestampPattern_of_canonical hnow
  constructor
  case schema =>
    exact fitsSchema_iff.2 ⟨hintent, hcreated, hpattern, hclaim, hreceived, hpattern⟩
  case identity => exact h.identity
  case timestamps =>
    exact timestampsCanonical_iff.2 ⟨hcreated', hnow, hclaimed, hreceived', hnow⟩
  case claim => exact h.claim
  case receipt => exact h.receipt
  case outcome => exact h.outcome
  case settlement =>
    have hstill : isActionSourceFailed (r.settledAs .sourceFailed settledAt) = true := hfailed
    unfold ActionRecord.settlementConsistent
    simp [ActionRecord.settledAs, hprojected, hreceipt] at hstill ⊢
    exact hstill

end ActionRecord.Valid

/-- A record takes no more bytes than it was budgeted for. -/
theorem ActionRecord.bytes_le_budgeted (r : ActionRecord) :
    jsonBytes r.toJson ≤ jsonBytes r.budgeted.toJson := by
  rw [jsonBytes_eq_canonicalBytes, jsonBytes_eq_canonicalBytes]
  unfold ActionRecord.budgeted
  cases hs : r.goalProjectionSettlement with
  | some settlement => exact Nat.le_refl _
  | none =>
    have hgrows := canonicalBytes_record_none_le
      (r.members ++ [("status", some (.text r.status.text)),
        ("attempt", some (.text (toString r.attempt))), ("createdAt", some (.text r.createdAt)),
        ("updatedAt", some (.text r.updatedAt)), ("claim", r.claim.map ActionClaim.toJson),
        ("receipt", r.receipt.map ActionReceipt.toJson)])
      "goalProjectionSettlement"
      (ActionGoalProjectionSettlement.toJson ⟨.sourceFailed, r.updatedAt⟩)
    rw [List.append_assoc, List.append_assoc] at hgrows
    unfold ActionRecord.toJson
    rw [hs]
    exact hgrows

end OpenGameAgent
