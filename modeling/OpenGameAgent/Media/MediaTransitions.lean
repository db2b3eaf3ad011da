import OpenGameAgent.Media.MediaChanges

/-!
# What a change writes

`AttemptStep` says of each callback of the service which attempts it changes and what becomes
of them, and `applyMediaChange_eq_some` that a callback that changes its job makes such a step,
or adds an attempt.  What the service does to its jobs is proved from these alone.
-/

namespace OpenGameAgent

/-- The attempt that a callback is about; none is the current attempt of the job. -/
def MediaChange.target : MediaChange → Option String
  | .requestCancel _ attemptId => attemptId
  | .claimStart attemptId _ | .abandonStart attemptId | .observePending attemptId _
  | .observeCancelled attemptId _ | .publishBundle attemptId _ _ _ _
  | .recordSettling attemptId _ _ _ | .markUnknown attemptId
  | .recoverInterruptedSubmission attemptId | .markFailed attemptId _ _
  | .recordOutputFailure attemptId _ _ _ _ | .recordCancellation attemptId _
  | .addAttempt _ attemptId _ => some attemptId

namespace StoredMediaAttempt

variable (attempt : StoredMediaAttempt)

/-- The attempt may take outputs of a provider that has completed with this status. -/
def takesOutputs (status : CompletionStatus) : Prop :=
  attempt.status.terminal = false ∧
    (attempt.status = .settling → attempt.settlingStatus = some status)

/-- The attempt with its outcome unknown. -/
def unknownOutcome : StoredMediaAttempt :=
  { attempt.clearAttemptOutcome with status := .outcomeUnknown, failure := some .unknown }

/-- The attempt as failed. -/
def failedWith (failure : MediaFailureKind)
    (outputSettlements : List StoredMediaOutputSettlement) (handle : Option JsonValue) :
    StoredMediaAttempt :=
  { attempt.clearAttemptOutcome with
    status := .failed
    failure := some failure
    outputSettlements := outputSettlements }.withHandle handle

/-- The attempt with outputs that wait for the others. -/
def settlingWith (status : CompletionStatus)
    (outputSettlements : List StoredMediaOutputSettlement) (handle : Option JsonValue) :
    StoredMediaAttempt :=
  { attempt.clearAttemptOutcome with
    status := .settling
    settlingStatus := some status
    outputSettlements := outputSettlements }.withHandle handle

/-- The attempt with its bundle. -/
def completedWith (status : CompletionStatus) (bundleId : String)
    (outputSettlements : List StoredMediaOutputSettlement) (handle : Option JsonValue) :
    StoredMediaAttempt :=
  { attempt.clearAttemptOutcome with
    status := status.status
    bundleId := some bundleId
    outputSettlements := outputSettlements }.withHandle handle

/-- The status behind an answer to a cancellation. -/
def answeredStatus (answer : CancellationAnswer) : MediaJobStatus :=
  if answer = .confirmed ∧ ¬ attempt.settled then .cancelled else attempt.status

end StoredMediaAttempt

open StoredMediaAttempt

/-- What a callback makes of an attempt, and the bundle it adds; the time of the update is
left open. -/
inductive AttemptStep (limits : MediaJobLimits) (current : StoredMediaJob)
    (attempt : StoredMediaAttempt) :
    MediaChange → StoredMediaAttempt → Option ResultBundle → Prop where
  | requestCancel {expectedRevision attemptId : Option String}
      (open' : attempt.status.terminal = false) :
      AttemptStep limits current attempt (.requestCancel expectedRevision attemptId)
        { attempt with
          status := match attempt.status with
            | .queued => .cancelled
            | .pending => .cancelRequested
            | status => status
          disposition := .abandoned
          cancellation := .requested } none
  | giveUp {attemptId : String} (queued : attempt.status = .queued) :
      AttemptStep limits current attempt (.claimStart attemptId true) attempt.unstarted none
  | claim {attemptId : String} (queued : attempt.status = .queued) :
      AttemptStep limits current attempt (.claimStart attemptId false)
        { attempt with status := .submitting } none
  | abandonStart {attemptId : String} (submitting : attempt.status = .submitting)
      (fresh : attempt.providerHandle = none) :
      AttemptStep limits current attempt (.abandonStart attemptId) attempt.unstarted none
  | observePending {attemptId : String} {handle : JsonValue} (unsettled : attempt.settled = false) :
      AttemptStep limits current attempt (.observePending attemptId handle)
        { attempt.clearAttemptOutcome with
          status := if attempt.disposition = .abandoned then .cancelRequested else .pending
          providerHandle := some handle } none
  | observeCancelled {attemptId : String} {handle : Option JsonValue}
      (unsettled : attempt.settled = false) :
      AttemptStep limits current attempt (.observeCancelled attemptId handle)
        ({ attempt.clearAttemptOutcome with
          status := .cancelled, cancellation := .confirmed }.withHandle handle) none
  | markUnknown {attemptId : String} (unsettled : attempt.settled = false) :
      AttemptStep limits current attempt (.markUnknown attemptId) attempt.unknownOutcome none
  | recover {attemptId : String} (submitting : attempt.status = .submitting)
      (fresh : attempt.providerHandle = none) :
      AttemptStep limits current attempt (.recoverInterruptedSubmission attemptId)
        attempt.unknownOutcome none
  | markFailed {attemptId : String} {failure : MediaFailureKind} {handle : Option JsonValue}
      (unsettled : attempt.settled = false) :
      AttemptStep limits current attempt (.markFailed attemptId failure handle)
        (attempt.failedWith failure [] handle) none
  | recordCancellation {attemptId : String} {answer : CancellationAnswer} :
      AttemptStep limits current attempt (.recordCancellation attemptId answer)
        { (if attempt.answeredStatus answer = .cancelled then attempt.clearAttemptOutcome
            else attempt) with
          status := attempt.answeredStatus answer
          cancellation := answer.cancellation } none
  | recordOutputFailure {attemptId : String} {failure : MediaFailureKind}
      {status : CompletionStatus} {settlements merged : List StoredMediaOutputSettlement}
      {handle : Option JsonValue} (takes : attempt.takesOutputs status)
      (merges : mergeOutputSettlements attempt.outputSettlements settlements = .ok merged) :
      AttemptStep limits current attempt
        (.recordOutputFailure attemptId failure status settlements handle)
        (attempt.failedWith
          (if exceedsBundleBytes merged limits.maxBundleBytes then .capacity else failure)
          merged handle) none
  | settle {attemptId : String} {status : CompletionStatus}
      {settlements merged : List StoredMediaOutputSettlement} {handle : Option JsonValue}
      (takes : attempt.takesOutputs status)
      (merges : mergeOutputSettlements attempt.outputSettlements settlements = .ok merged) :
      AttemptStep limits current attempt (.recordSettling attemptId status settlements handle)
        (if exceedsBundleBytes merged limits.maxBundleBytes then
          attempt.failedWith .capacity merged handle
        else attempt.settlingWith status merged handle) none
  | publishTooMuch {attemptId bundleId : String} {status : CompletionStatus}
      {settlements merged : List StoredMediaOutputSettlement} {handle : Option JsonValue}
      (takes : attempt.takesOutputs status)
      (merges : mergeOutputSettlements attempt.outputSettlements settlements = .ok merged) :
      AttemptStep limits current attempt
        (.publishBundle attemptId bundleId status settlements handle)
        (attempt.failedWith .capacity merged handle) none
  | publish {attemptId bundleId : String} {status : CompletionStatus}
      {settlements merged : List StoredMediaOutputSettlement} {handle : Option JsonValue}
      (takes : attempt.takesOutputs status)
      (merges : mergeOutputSettlements attempt.outputSettlements settlements = .ok merged)
      (fresh : ∀ bundle ∈ current.bundles, bundle.bundleId ≠ bundleId)
      (fits : exceedsBundleBytes merged limits.maxBundleBytes = false)
      (admitted : (settledBundle current attempt bundleId status merged).admitted limits = .ok ()) :
      AttemptStep limits current attempt
        (.publishBundle attemptId bundleId status settlements handle)
        (attempt.completedWith status bundleId merged handle)
        (some (settledBundle current attempt bundleId status merged))

/-- A callback has changed one attempt of its job. -/
def ChangesAttempt (limits : MediaJobLimits) (now : Except MediaJobError String)
    (current : StoredMediaJob) (change : MediaChange) (changed : StoredMediaJob) : Prop :=
  ∃ attempt after bundle updatedAt, current.selectAttempt change.target = .ok attempt ∧
    AttemptStep limits current attempt change after bundle ∧ now = .ok updatedAt ∧
    changed = { current.replaceAttempt attempt.attemptId { after with updatedAt := updatedAt } with
      bundles := current.bundles ++ bundle.toList }

/-- The callback of `restart` has added an attempt to its job. -/
def AddsAttempt (limits : MediaJobLimits) (adapters : List MediaGenerationAdapter)
    (now : Except MediaJobError String) (current : StoredMediaJob) (change : MediaChange)
    (changed : StoredMediaJob) : Prop :=
  ∃ expectedRevision attemptId submissionKey recordedAt,
    change = .addAttempt expectedRevision attemptId submissionKey ∧
    assertRestartable limits adapters current expectedRevision = .ok () ∧
    (∀ attempt ∈ current.attempts,
      attempt.attemptId ≠ attemptId ∧ attempt.submissionKey ≠ submissionKey) ∧
    now = .ok recordedAt ∧
    changed = { current with
      currentAttemptId := attemptId
      attempts := current.attempts ++
        [newAttempt current.attempts.length recordedAt attemptId submissionKey]
      updatedAt := recordedAt }

section Inversion

variable {limits : MediaJobLimits} {adapters : List MediaGenerationAdapter}
  {now : Except MediaJobError String} {current changed : StoredMediaJob}
  {attempt after : StoredMediaAttempt} {change : MediaChange}

theorem writeAttempt_eq_ok {result : Option StoredMediaJob}
    (h : writeAttempt now current attempt after = .ok result) :
    ∃ updatedAt, now = .ok updatedAt ∧ result = some
      (current.replaceAttempt attempt.attemptId { after with updatedAt := updatedAt }) := by
  obtain ⟨updatedAt, hnow, h⟩ := bind_eq_ok.1 h
  exact ⟨updatedAt, hnow, return_eq_ok.1 h⟩

/-- A step that adds no bundle changes one attempt. -/
theorem changesAttempt_of_write (hattempt : current.selectAttempt change.target = .ok attempt)
    (hstep : AttemptStep limits current attempt change after none)
    (h : writeAttempt now current attempt after = .ok (some changed)) :
    ChangesAttempt limits now current change changed := by
  obtain ⟨updatedAt, hnow, hchanged⟩ := writeAttempt_eq_ok h
  refine ⟨attempt, after, none, updatedAt, hattempt, hstep, hnow, ?_⟩
  rw [Option.some.inj hchanged]
  simp [StoredMediaJob.replaceAttempt]

theorem takesOutputs_of_not {status : CompletionStatus}
    (h : ¬ (attempt.status.terminal = true ∨
      attempt.status = .settling ∧ attempt.settlingStatus ≠ some status)) :
    attempt.takesOutputs status := by
  rw [not_or, not_and, not_not] at h
  exact ⟨Bool.eq_false_iff.2 h.1, h.2⟩

/-- What a callback may do that changes its job. -/
theorem applyMediaChange_eq_some
    (h : applyMediaChange limits adapters now current change = .ok (some changed)) :
    ChangesAttempt limits now current change changed ∨
      AddsAttempt limits adapters now current change changed := by
  cases change with
  | requestCancel expectedRevision attemptId =>
    obtain ⟨_, -, h⟩ := bind_eq_ok.1 h
    obtain ⟨_, -, h⟩ := bind_eq_ok.1 h
    obtain ⟨attempt, hattempt, h⟩ := bind_eq_ok.1 h
    split at h
    case isTrue => simp [return_eq_ok] at h
    case isFalse hopen =>
      exact .inl (changesAttempt_of_write hattempt
        (.requestCancel (Bool.eq_false_iff.2 hopen)) h)
  | claimStart attemptId aborted =>
    obtain ⟨attempt, hattempt, h⟩ := bind_eq_ok.1 h
    split at h
    case isTrue => simp [return_eq_ok] at h
    case isFalse hqueued =>
      cases aborted with
      | true =>
        rw [if_pos rfl] at h
        exact .inl (changesAttempt_of_write hattempt (.giveUp (not_not.1 hqueued)) h)
      | false =>
        rw [if_neg Bool.false_ne_true] at h
        exact .inl (changesAttempt_of_write hattempt (.claim (not_not.1 hqueued)) h)
  | abandonStart attemptId =>
    obtain ⟨attempt, hattempt, h⟩ := bind_eq_ok.1 h
    split at h
    case isTrue => simp [return_eq_ok] at h
    case isFalse hsubmitting =>
      rw [not_or, not_not, Option.not_isSome_iff_eq_none] at hsubmitting
      exact .inl (changesAttempt_of_write hattempt
        (.abandonStart hsubmitting.1 hsubmitting.2) h)
  | observePending attemptId handle =>
    obtain ⟨attempt, hattempt, h⟩ := bind_eq_ok.1 h
    split at h
    case isTrue => simp [return_eq_ok] at h
    case isFalse hsettled =>
      exact .inl (changesAttempt_of_write hattempt
        (.observePending (Bool.eq_false_iff.2 hsettled)) h)
  | observeCancelled attemptId handle =>
    obtain ⟨attempt, hattempt, h⟩ := bind_eq_ok.1 h
    split at h
    case isTrue => simp [return_eq_ok] at h
    case isFalse hsettled =>
      exact .inl (changesAttempt_of_write hattempt
        (.observeCancelled (Bool.eq_false_iff.2 hsettled)) h)
  | publishBundle attemptId bundleId status settlements handle =>
    obtain ⟨attempt, hattempt, h⟩ := bind_eq_ok.1 h
    split at h
    case isTrue => simp [return_eq_ok] at h
    case isFalse htakes =>
      obtain ⟨_, hfresh, h⟩ := bind_eq_ok.1 h
      obtain ⟨merged, hmerged, h⟩ := bind_eq_ok.1 h
      obtain ⟨updatedAt, hnow, h⟩ := bind_eq_ok.1 h
      have htakes := takesOutputs_of_not htakes
      have htooMuch : AttemptStep limits current attempt
          (.publishBundle attemptId bundleId status settlements handle)
          (attempt.failedWith .capacity merged handle) none := .publishTooMuch htakes hmerged
      rw [hnow]
      dsimp only at h
      split at h
      case isTrue => exact .inl (changesAttempt_of_write hattempt htooMuch h)
      case isFalse hfits =>
        split at h
        · exact .inl (changesAttempt_of_write hattempt htooMuch h)
        · cases h
        · rename_i hadmitted
          have hfresh : ∀ bundle ∈ current.bundles, bundle.bundleId ≠ bundleId := by
            simpa using hfresh
          exact .inl ⟨attempt, _, _, updatedAt, hattempt,
            .publish htakes hmerged hfresh (Bool.eq_false_iff.2 hfits) hadmitted, rfl,
            Option.some.inj (return_eq_ok.1 h)⟩
  | recordSettling attemptId status settlements handle =>
    obtain ⟨attempt, hattempt, h⟩ := bind_eq_ok.1 h
    split at h
    case isTrue => simp [return_eq_ok] at h
    case isFalse htakes =>
      obtain ⟨merged, hmerged, h⟩ := bind_eq_ok.1 h
      have hstep : AttemptStep limits current attempt
          (.recordSettling attemptId status settlements handle) _ none :=
        .settle (takesOutputs_of_not htakes) hmerged
      split at h
      case isTrue hexceeds =>
        rw [if_pos hexceeds] at hstep
        exact .inl (changesAttempt_of_write hattempt hstep h)
      case isFalse hexceeds =>
        rw [if_neg hexceeds] at hstep
        exact .inl (changesAttempt_of_write hattempt hstep h)
  | markUnknown attemptId =>
    obtain ⟨attempt, hattempt, h⟩ := bind_eq_ok.1 h
    split at h
    case isTrue => simp [return_eq_ok] at h
    case isFalse hsettled =>
      exact .inl (changesAttempt_of_write hattempt
        (.markUnknown (Bool.eq_false_iff.2 hsettled)) h)
  | recoverInterruptedSubmission attemptId =>
    obtain ⟨attempt, hattempt, h⟩ := bind_eq_ok.1 h
    split at h
    case isTrue => simp [return_eq_ok] at h
    case isFalse hsubmitting =>
      rw [not_or, not_not, Option.not_isSome_iff_eq_none] at hsubmitting
      exact .inl (changesAttempt_of_write hattempt (.recover hsubmitting.1 hsubmitting.2) h)
  | markFailed attemptId failure handle =>
    obtain ⟨attempt, hattempt, h⟩ := bind_eq_ok.1 h
    split at h
    case isTrue => simp [return_eq_ok] at h
    case isFalse hsettled =>
      exact .inl (changesAttempt_of_write hattempt
        (.markFailed (Bool.eq_false_iff.2 hsettled)) h)
  | recordOutputFailure attemptId failure status settlements handle =>
    obtain ⟨attempt, hattempt, h⟩ := bind_eq_ok.1 h
    split at h
    case isTrue => simp [return_eq_ok] at h
    case isFalse htakes =>
      obtain ⟨merged, hmerged, h⟩ := bind_eq_ok.1 h
      exact .inl (changesAttempt_of_write hattempt
        (.recordOutputFailure (takesOutputs_of_not htakes) hmerged) h)
  | recordCancellation attemptId answer =>
    obtain ⟨attempt, hattempt, h⟩ := bind_eq_ok.1 h
    change (if attempt.cancellation = answer.cancellation ∧
      attempt.status = attempt.answeredStatus answer then pure none else _) = _ at h
    split at h
    case isTrue => simp [return_eq_ok] at h
    case isFalse => exact .inl (changesAttempt_of_write hattempt .recordCancellation h)
  | addAttempt expectedRevision attemptId submissionKey =>
    obtain ⟨_, hrestartable, h⟩ := bind_eq_ok.1 h
    obtain ⟨_, hfresh, h⟩ := bind_eq_ok.1 h
    obtain ⟨recordedAt, hnow, h⟩ := bind_eq_ok.1 h
    refine .inr ⟨expectedRevision, attemptId, submissionKey, recordedAt, rfl, hrestartable, ?_,
      hnow, Option.some.inj (return_eq_ok.1 h)⟩
    simpa using hfresh

end Inversion

end OpenGameAgent
