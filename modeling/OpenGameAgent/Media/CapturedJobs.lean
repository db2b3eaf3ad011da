import OpenGameAgent.Media.MediaProtocol
import OpenGameAgent.Media.MediaTransitions

/-!
# Jobs that are captured

`StoredMediaJob.Captured` spells out what `captureStoredMediaJob` demands of a job, and
`AttemptCaptured` what it demands of an attempt in it.
-/

namespace OpenGameAgent

variable {limits : MediaJobLimits}

/-- What `captureAttempt` demands of an attempt, its place apart. -/
structure AttemptCaptured (limits : MediaJobLimits) (attempt : StoredMediaAttempt) : Prop where
  attemptId : mediaIdentifier limits.maxIdentifierBytes attempt.attemptId = .ok ()
  submissionKey : mediaIdentifier limits.maxIdentifierBytes attempt.submissionKey = .ok ()
  startedAt : isCanonicalTimestamp attempt.startedAt = true
  updatedAt : isCanonicalTimestamp attempt.updatedAt = true
  handle : HandleFits limits attempt.providerHandle
  bundleId : ∀ id, attempt.bundleId = some id → mediaIdentifier limits.maxIdentifierBytes id = .ok ()
  length : attempt.outputSettlements.length ≤ limits.maxOutputsPerAttempt
  captured : ∀ settlement ∈ attempt.outputSettlements, captureSettlement limits settlement = .ok ()
  strict : attempt.outputSettlements.Pairwise (·.ordinal.value < ·.ordinal.value)
  cancellationFits : attempt.cancellationFits = true
  outcomeFits : attempt.outcomeFits = true

theorem captureAttempt_eq_ok {attempt : StoredMediaAttempt} {ordinal : Nat} :
    captureAttempt limits attempt ordinal = .ok () ↔
      attempt.ordinal = ordinal ∧ AttemptCaptured limits attempt := by
  simp only [captureAttempt, check_eq_ok, demand_eq_ok, mediaTimestamp, option_forM_eq_ok,
    forM_eq_ok, decide_eq_true_eq, strictOrdinals, List.pairwise_map, Bool.and_eq_true]
  constructor
  · rintro ⟨h1, h2, h3, h4, h5, h6, h7, h8, h9, h10, h11, h12⟩
    exact ⟨h3, ⟨h1, h2, h4, h5, h6, h7, h8, h9, h10, h11, h12⟩⟩
  · rintro ⟨h3, ⟨h1, h2, h4, h5, h6, h7, h8, h9, h10, h11, h12⟩⟩
    exact ⟨h1, h2, h3, h4, h5, h6, h7, h8, h9, h10, h11, h12⟩

/-- What `captureStoredMediaJob` demands of a job. -/
structure StoredMediaJob.Captured (limits : MediaJobLimits) (job : StoredMediaJob) : Prop where
  plain : job.plain = true
  jobId : mediaIdentifier limits.maxIdentifierBytes job.jobId = .ok ()
  adapterId : mediaIdentifier limits.maxAdapterIdBytes job.adapterId = .ok ()
  input : mediaJson limits limits.maxRequestBytes job.request.input = .ok ()
  revision : 0 < job.revision
  createdAt : isCanonicalTimestamp job.createdAt = true
  updatedAt : isCanonicalTimestamp job.updatedAt = true
  currentAttemptId : mediaIdentifier limits.maxIdentifierBytes job.currentAttemptId = .ok ()
  nonempty : job.attempts ≠ []
  length : job.attempts.length ≤ limits.maxAttemptsPerJob
  ordinals : ∀ (i : Nat) (attempt : StoredMediaAttempt),
    job.attempts[i]? = some attempt → attempt.ordinal = i
  attempts : ∀ attempt ∈ job.attempts, AttemptCaptured limits attempt
  attemptIds : (job.attempts.map (·.attemptId)).Nodup
  submissionKeys : (job.attempts.map (·.submissionKey)).Nodup
  current : job.attempts.getLast?.map (·.attemptId) = some job.currentAttemptId
  superseded : ∀ attempt ∈ job.attempts.dropLast,
    attempt.status.terminal = true ∨ attempt.disposition = .abandoned
  bundleCount : job.bundles.length ≤ limits.maxAttemptsPerJob
  bundles : ∀ bundle ∈ job.bundles, captureBundle limits job.jobId bundle = .ok ()
  bundleIds : (job.bundles.map (·.bundleId)).Nodup
  linked : ∀ bundle ∈ job.bundles, linksAttempt job.attempts bundle = true
  bundleAttempts : (job.bundles.map (·.attemptId)).Nodup
  bundled : ∀ attempt ∈ job.attempts,
    attempt.bundleId.isSome = true ↔ attempt.attemptId ∈ job.bundles.map (·.attemptId)

theorem captureStoredMediaJob_eq_ok {job : StoredMediaJob} :
    captureStoredMediaJob limits job = .ok () ↔ job.Captured limits := by
  have hattempts : (∀ entry ∈ job.attempts.zipIdx, captureAttempt limits entry.1 entry.2 = .ok ()) ↔
      (∀ (i : Nat) (attempt : StoredMediaAttempt),
        job.attempts[i]? = some attempt → attempt.ordinal = i) ∧
        ∀ attempt ∈ job.attempts, AttemptCaptured limits attempt := by
    constructor
    · intro h
      refine ⟨fun i attempt hi => ?_, fun attempt hmem => ?_⟩
      · exact (captureAttempt_eq_ok.1 (h (attempt, i) (List.mem_zipIdx_iff_getElem?.2 hi))).1
      · obtain ⟨i, hi⟩ := List.getElem?_of_mem hmem
        exact (captureAttempt_eq_ok.1 (h (attempt, i) (List.mem_zipIdx_iff_getElem?.2 hi))).2
    · rintro ⟨hordinals, hcaptured⟩ ⟨attempt, i⟩ hmem
      have hi := List.mem_zipIdx_iff_getElem?.1 hmem
      exact captureAttempt_eq_ok.2 ⟨hordinals i attempt hi, hcaptured _ (List.mem_of_getElem? hi)⟩
  simp only [captureStoredMediaJob, check_eq_ok, demand_eq_ok, mediaTimestamp, forM_eq_ok,
    decide_eq_true_eq, assertBundleLinks, Bool.and_eq_true, List.all_eq_true, hattempts,
    Bool.or_eq_true, Bool.not_eq_true', List.isEmpty_eq_false_iff]
  constructor
  · rintro ⟨h1, h2, h3, h4, h5, h6, h7, h8, h9, h10, ⟨h11, h12⟩, h13, h14, h15, h16, h17, h18, h19,
      ⟨h20, h21⟩, h22⟩
    exact ⟨h1, h2, h3, h4, h5, h6, h7, h8, h9, h10, h11, h12, h13, h14, h15, h16, h17, h18, h19,
      h20, h21, fun attempt hmem => by rw [h22 attempt hmem, List.contains_iff_mem]⟩
  · rintro ⟨h1, h2, h3, h4, h5, h6, h7, h8, h9, h10, h11, h12, h13, h14, h15, h16, h17, h18, h19,
      h20, h21, h22⟩
    exact ⟨h1, h2, h3, h4, h5, h6, h7, h8, h9, h10, ⟨h11, h12⟩, h13, h14, h15, h16, h17, h18, h19,
      ⟨h20, h21⟩, fun attempt hmem => Bool.eq_iff_iff.2
        ((h22 attempt hmem).trans List.contains_iff_mem.symm)⟩

end OpenGameAgent
