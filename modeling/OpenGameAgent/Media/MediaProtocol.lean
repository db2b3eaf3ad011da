import OpenGameAgent.Library.StableSort
import OpenGameAgent.Media.MediaJobService

/-!
# What a call on the media service may write when

A call starts a provider only for an attempt that it has claimed, and records the answer to a
cancellation only for an attempt that it has marked; what it writes has been captured before.
`mediaObserver` says so, and every method of the service follows it: `follows_mediaBody`.
-/

namespace OpenGameAgent

/-! ## Captured values -/

section Captured

variable (limits : MediaJobLimits)

/-- A handle is within its budget. -/
def HandleFits (handle : Option JsonValue) : Prop :=
  ∀ value, handle = some value → mediaJson limits limits.maxProviderHandleBytes value = .ok ()

/-- Settlements that the validator of stored jobs accepts, each resource under its own ordinal. -/
structure SettlementsFit (settlements : List StoredMediaOutputSettlement) : Prop where
  captured : ∀ settlement ∈ settlements, captureSettlement limits settlement = .ok ()
  linked : ∀ settlement ∈ settlements, ∀ resource, settlement.resource = some resource →
    resource.ordinal = settlement.ordinal
  strict : settlements.Pairwise (·.ordinal.value < ·.ordinal.value)

/-- The settlements of a completed provider: failures are there exactly if it says so. -/
def KindsFit (status : CompletionStatus) (settlements : List StoredMediaOutputSettlement) : Prop :=
  (settlements.any fun settlement => settlement.failure.isSome) =
    decide (status = .partiallySucceeded)

/-- What a callback closes over has been captured. -/
def MediaChange.Fits : MediaChange → Prop
  | .observePending _ handle => HandleFits limits (some handle)
  | .observeCancelled _ handle | .markFailed _ _ handle => HandleFits limits handle
  | .publishBundle _ bundleId status settlements handle =>
    mediaIdentifier limits.maxIdentifierBytes bundleId = .ok () ∧
      SettlementsFit limits settlements ∧ KindsFit status settlements ∧
      (settlements.any fun settlement => settlement.resource.isSome) = true ∧
      HandleFits limits handle
  | .recordSettling _ status settlements handle =>
    SettlementsFit limits settlements ∧ KindsFit status settlements ∧ HandleFits limits handle
  | .recordOutputFailure _ _ _ settlements handle =>
    SettlementsFit limits settlements ∧ HandleFits limits handle
  | .addAttempt _ attemptId submissionKey =>
    mediaIdentifier limits.maxIdentifierBytes attemptId = .ok () ∧
      mediaIdentifier limits.maxIdentifierBytes submissionKey = .ok ()
  | _ => True

end Captured

/-! ## Phases -/

/-- What a call knows of the store. -/
inductive MediaPhase where
  | idle
  /-- It has claimed an attempt of this job and not yet started its provider. -/
  | claimed (job : StoredMediaJob) (attemptId : String)
  /-- It has marked the selected attempt of this job as cancelled. -/
  | marked (job : StoredMediaJob) (attemptId : Option String)
  deriving DecidableEq

/-- The attempt that a call has marked, if it goes on with its provider. -/
def MediaPhase.Marks (phase : MediaPhase) (jobId attemptId : String) : Prop :=
  ∃ job selected attempt, phase = .marked job selected ∧ job.jobId = jobId ∧
    job.selectAttempt selected = .ok attempt ∧ attempt.attemptId = attemptId ∧
    attempt.status.terminal = false ∧ attempt.providerHandle.isSome = true

/-- A job as `submit` creates it. -/
def StoredMediaJob.Fresh (job : StoredMediaJob) : Prop :=
  ∃ recordedAt attemptId submissionKey,
    job.attempts = [newAttempt 0 recordedAt attemptId submissionKey] ∧ job.bundles = []

/-- The phases of a call. -/
def mediaObserver (limits : MediaJobLimits) : Observer MediaEffect MediaAnswer MediaPhase where
  start := .idle
  next phase e a :=
    match e, a with
    | .modify _ (.claimStart attemptId false) _, .ok (job, true) => .claimed job attemptId
    | .modify _ (.requestCancel _ attemptId) _, .ok (job, _) => .marked job attemptId
    | .startProvider _ _ _, _ => .idle
    | _, _ => phase
  allows phase e :=
    match e with
    | .create job => job.Fresh
    | .modify jobId change now =>
      change.Fits limits ∧ (∀ time, now = .ok time → isCanonicalTimestamp time = true) ∧
        ∀ attemptId answer, change = .recordCancellation attemptId answer →
          phase.Marks jobId attemptId
    | .startProvider _ _ operation =>
      ∃ job, phase = .claimed job operation.attemptId ∧ operation.jobId = job.jobId
    | _ => True

/-! ## What is captured of an answer -/

section Capture

variable {limits : MediaJobLimits}

theorem outputOrdinal_eq_ok {ordinal : JsInteger} :
    outputOrdinal limits ordinal = .ok () ↔
      ordinal.safe = true ∧ ordinal.value < limits.maxOutputsPerAttempt := by
  simp [outputOrdinal, bind_eq_ok]

theorem outputOrdinal_congr {a b : JsInteger} (h : a.value = b.value) :
    outputOrdinal limits a = .ok () ↔ outputOrdinal limits b = .ok () := by
  rw [outputOrdinal_eq_ok, outputOrdinal_eq_ok, JsInteger.safe, JsInteger.safe, h]

/-- What is known of a captured resource. -/
structure ResourceFits (limits : MediaJobLimits) (resource : MediaProviderResource) : Prop where
  ordinal : outputOrdinal limits resource.ordinal = .ok ()
  nonempty : resource.mediaType.isEmpty = false
  short : utf8Length (utf16 resource.mediaType) ≤ limits.maxMediaTypeBytes

theorem captureProviderResource_fits {raw : RawMediaResource} {resource : MediaProviderResource}
    (h : captureProviderResource limits raw = .ok resource) : ResourceFits limits resource := by
  obtain ⟨_, -, h⟩ := bind_eq_ok.1 h
  dsimp only at h
  split at h
  · rename_i ordinal kind mediaType _ _ _
    obtain ⟨_, hvalid, h⟩ := bind_eq_ok.1 h
    obtain ⟨_, hordinal, h⟩ := bind_eq_ok.1 h
    obtain ⟨_, hshort, h⟩ := bind_eq_ok.1 h
    obtain ⟨_, -, h⟩ := bind_eq_ok.1 h
    obtain ⟨_, -, h⟩ := bind_eq_ok.1 h
    obtain rfl := return_eq_ok.1 h
    rw [demand_eq_ok, Bool.and_eq_true, Bool.and_eq_true, Bool.not_eq_true'] at hvalid
    rw [demand_eq_ok, decide_eq_true_eq] at hordinal hshort
    exact ⟨outputOrdinal_eq_ok.2 ⟨hvalid.1.1, hordinal⟩, hvalid.1.2, hshort⟩
  · cases h

theorem captureChildFailure_fits {raw : RawChildFailure} {failure : MediaChildFailure}
    (h : captureChildFailure limits raw = .ok failure) :
    outputOrdinal limits failure.ordinal = .ok () := by
  unfold captureChildFailure at h
  split at h
  · obtain ⟨_, hsafe, h⟩ := bind_eq_ok.1 h
    obtain ⟨_, hordinal, h⟩ := bind_eq_ok.1 h
    obtain rfl := return_eq_ok.1 h
    rw [demand_eq_ok] at hsafe
    rw [demand_eq_ok, decide_eq_true_eq] at hordinal
    exact outputOrdinal_eq_ok.2 ⟨hsafe, hordinal⟩
  · cases h

/-- A captured reference is a resource that the validator accepts, under the ordinal of the
resource it was published for. -/
theorem captureResourceReference_fits {raw : Option RawReference}
    {resource : MediaProviderResource} {reference : GeneratedResourceRef} {maxBytes : Int}
    (hfits : ResourceFits limits resource) (hmax : maxBytes ≤ limits.maxResourceBytes)
    (h : captureResourceReference limits raw resource maxBytes = .ok reference) :
    captureResource limits reference = .ok () ∧
      reference.ordinal.value = resource.ordinal.value := by
  unfold captureResourceReference at h
  split at h
  · cases h
  split at h
  · rename_i sha256 byteLength ordinal _ _ _
    obtain ⟨_, hvalid, h⟩ := bind_eq_ok.1 h
    obtain ⟨_, hbytes, h⟩ := bind_eq_ok.1 h
    obtain rfl := return_eq_ok.1 h
    simp only [demand_eq_ok, Bool.and_eq_true, decide_eq_true_eq] at hvalid hbytes
    obtain ⟨⟨⟨⟨⟨⟨hsha, -⟩, -⟩, -⟩, hordinal⟩, hsafe⟩, -⟩ := hvalid
    refine ⟨?_, hordinal⟩
    have hwithin : byteLength.value ≤ limits.maxResourceBytes := hbytes.trans hmax
    simp [captureResource, bind_eq_ok, hsha, hsafe, hfits.nonempty, hfits.short, hwithin,
      (outputOrdinal_congr hordinal).2 hfits.ordinal]
  · cases h

theorem captureJson_eq_ok {maxBytes : Nat} {raw : RawJson} {value : JsonValue}
    (h : captureJson limits maxBytes raw = .ok value) : mediaJson limits maxBytes value = .ok () := by
  cases raw with
  | json value' =>
    obtain ⟨_, hjson, h⟩ := bind_eq_ok.1 h
    obtain rfl := return_eq_ok.1 h
    exact hjson
  | other limited => cases h

/-- What is known of a captured observation of a provider that has completed. -/
structure CompletionFits (limits : MediaJobLimits) (status : CompletionStatus)
    (resources : List MediaProviderResource) (failures : List MediaChildFailure)
    (handle : Option JsonValue) : Prop where
  handleFits : HandleFits limits handle
  resourceFits : ∀ resource ∈ resources, ResourceFits limits resource
  failureFits : ∀ failure ∈ failures, outputOrdinal limits failure.ordinal = .ok ()
  nonempty : resources ≠ []
  failed_iff : failures = [] ↔ status = .succeeded
  distinct : (resources.map (·.ordinal.value) ++ failures.map (·.ordinal.value)).Nodup

/-- What is known of a captured observation. -/
def CapturedProviderObservation.Fits (limits : MediaJobLimits) : CapturedProviderObservation → Prop
  | .pending handle => HandleFits limits (some handle)
  | .failed _ handle | .cancelled handle => HandleFits limits handle
  | .completed status resources failures handle =>
    CompletionFits limits status resources failures handle

theorem captureCompletion_fits {candidate : RawObservation} {status : CompletionStatus}
    {handle : Option JsonValue} {observation : CapturedProviderObservation}
    (hhandle : HandleFits limits handle)
    (h : captureCompletion limits candidate status handle = .ok observation) :
    observation.Fits limits := by
  unfold captureCompletion at h
  split at h
  · cases h
  rename_i rawResources _
  obtain ⟨_, -, h⟩ := bind_eq_ok.1 h
  dsimp only at h
  generalize hraw : (if status = .partiallySucceeded then candidate.failures.getD [] else []) =
    rawFailures at h
  obtain ⟨_, hempty, h⟩ := bind_eq_ok.1 h
  obtain ⟨_, -, h⟩ := bind_eq_ok.1 h
  obtain ⟨resources, hresources, h⟩ := bind_eq_ok.1 h
  obtain ⟨failures, hfailures, h⟩ := bind_eq_ok.1 h
  obtain ⟨_, hdistinct, h⟩ := bind_eq_ok.1 h
  obtain rfl := return_eq_ok.1 h
  rw [mapM_eq_ok_iff] at hresources hfailures
  simp only [demand_eq_ok, Bool.not_eq_true', Bool.or_eq_false_iff, Bool.and_eq_false_iff,
    decide_eq_false_iff_not, List.isEmpty_eq_false_iff] at hempty
  constructor
  case handleFits => exact hhandle
  case resourceFits =>
    intro resource hmem
    obtain ⟨raw, -, hraw⟩ := exists_left_of_forall₂ hresources ((List.mem_insertionSort _).1 hmem)
    exact captureProviderResource_fits hraw
  case failureFits =>
    intro failure hmem
    obtain ⟨raw, -, hraw⟩ := exists_left_of_forall₂ hfailures ((List.mem_insertionSort _).1 hmem)
    exact captureChildFailure_fits hraw
  case nonempty =>
    intro hnil
    have hlength := congrArg List.length hnil
    rw [List.length_insertionSort, ← hresources.length_eq] at hlength
    exact hempty.1 (List.length_eq_zero_iff.1 hlength)
  case failed_iff =>
    have hlength := hfailures.length_eq
    rw [← List.length_eq_zero_iff, List.length_insertionSort, ← hlength,
      List.length_eq_zero_iff]
    cases status with
    | succeeded => simp [← hraw]
    | partiallySucceeded => simpa using hempty.2
  case distinct =>
    rw [demand_eq_ok, decide_eq_true_eq] at hdistinct
    refine (List.Perm.nodup_iff ?_).1 hdistinct
    exact (((List.perm_insertionSort _ _).map _).append
      ((List.perm_insertionSort _ _).map _)).symm

/-- What is captured of an observation fits. -/
theorem captureObservation_fits {raw : Option RawObservation}
    {observation : CapturedProviderObservation}
    (h : captureObservation limits raw = .ok observation) : observation.Fits limits := by
  unfold captureObservation at h
  split at h
  · cases h
  rename_i candidate
  obtain ⟨handle, hcaptured, h⟩ := bind_eq_ok.1 h
  have hhandle : HandleFits limits handle := by
    intro value hvalue
    subst hvalue
    cases hraw : candidate.handle with
    | none => simp [hraw, pure, Except.pure] at hcaptured
    | some raw =>
      rw [hraw, Option.mapM_some] at hcaptured
      obtain ⟨value', hvalue, hcaptured⟩ := bind_eq_ok.1 hcaptured
      obtain ⟨rfl⟩ := return_eq_ok.1 hcaptured
      exact captureJson_eq_ok hvalue
  split at h
  · split at h
    · cases h
    · obtain rfl := return_eq_ok.1 h
      exact hhandle
  · split at h
    · cases h
    · obtain rfl := return_eq_ok.1 h
      exact hhandle
  · obtain rfl := return_eq_ok.1 h
    exact hhandle
  · exact captureCompletion_fits hhandle h
  · exact captureCompletion_fits hhandle h
  · cases h

theorem mem_freezeOutputSettlements {resources : List GeneratedResourceRef}
    {failures : List MediaChildFailure} {settlement : StoredMediaOutputSettlement} :
    settlement ∈ freezeOutputSettlements resources failures ↔
      (∃ resource ∈ resources, .published resource.ordinal resource = settlement) ∨
        ∃ failure ∈ failures, .failed failure.ordinal failure.failure = settlement := by
  simp [freezeOutputSettlements, List.mem_insertionSort]

/-- Frozen outputs with distinct ordinals are settlements that the validator accepts. -/
theorem freezeOutputSettlements_fits {resources : List GeneratedResourceRef}
    {failures : List MediaChildFailure}
    (hresources : ∀ resource ∈ resources, captureResource limits resource = .ok ())
    (hfailures : ∀ failure ∈ failures, outputOrdinal limits failure.ordinal = .ok ())
    (hdistinct : (resources.map (·.ordinal.value) ++ failures.map (·.ordinal.value)).Nodup) :
    SettlementsFit limits (freezeOutputSettlements resources failures) := by
  constructor
  case captured =>
    intro settlement hmem
    rcases mem_freezeOutputSettlements.1 hmem with
      ⟨resource, hresource, rfl⟩ | ⟨failure, hfailure, rfl⟩
    · have hcaptured := hresources resource hresource
      obtain ⟨_, -, hordinal⟩ := bind_eq_ok.1 hcaptured
      obtain ⟨_, -, hordinal⟩ := bind_eq_ok.1 hordinal
      obtain ⟨_, -, hordinal⟩ := bind_eq_ok.1 hordinal
      exact check_eq_ok.2 ⟨hordinal, hcaptured⟩
    · exact hfailures failure hfailure
  case linked =>
    intro settlement hmem resource hresource
    rcases mem_freezeOutputSettlements.1 hmem with ⟨other, -, rfl⟩ | ⟨failure, -, rfl⟩
    · obtain rfl := Option.some.inj hresource
      rfl
    · cases hresource
  case strict =>
    refine pairwise_lt_insertionSort
      (fun settlement : StoredMediaOutputSettlement => settlement.ordinal.value) ?_
    rw [List.map_append, List.map_map, List.map_map]
    exact hdistinct

theorem any_failure_freezeOutputSettlements (resources : List GeneratedResourceRef)
    (failures : List MediaChildFailure) :
    ((freezeOutputSettlements resources failures).any fun settlement =>
      settlement.failure.isSome) = !failures.isEmpty := by
  rw [Bool.eq_iff_iff, List.any_eq_true]
  constructor
  · rintro ⟨settlement, hmem, hfailure⟩
    rcases mem_freezeOutputSettlements.1 hmem with ⟨resource, -, rfl⟩ | ⟨failure, hfailures, rfl⟩
    · cases hfailure
    · exact List.isEmpty_eq_false_iff.2 (List.ne_nil_of_mem hfailures) ▸ rfl
  · intro hfailures
    cases failures with
    | nil => cases hfailures
    | cons failure failures =>
      exact ⟨_, mem_freezeOutputSettlements.2 (.inr ⟨failure, List.mem_cons_self .., rfl⟩), rfl⟩

theorem kindsFit_freezeOutputSettlements {status : CompletionStatus}
    {failures : List MediaChildFailure} (h : failures = [] ↔ status = .succeeded)
    (resources : List GeneratedResourceRef) :
    KindsFit status (freezeOutputSettlements resources failures) := by
  rw [KindsFit, any_failure_freezeOutputSettlements]
  cases status with
  | succeeded => rw [h.2 rfl]; rfl
  | partiallySucceeded =>
    have hne : failures ≠ [] := fun hnil => nomatch h.1 hnil
    rw [List.isEmpty_eq_false_iff.2 hne]
    rfl

theorem any_resource_freezeOutputSettlements {resources : List GeneratedResourceRef}
    (h : resources ≠ []) (failures : List MediaChildFailure) :
    ((freezeOutputSettlements resources failures).any fun settlement =>
      settlement.resource.isSome) = true := by
  obtain ⟨resource, rest, rfl⟩ := List.exists_cons_of_ne_nil h
  exact List.any_eq_true.2
    ⟨_, mem_freezeOutputSettlements.2 (.inl ⟨resource, List.mem_cons_self .., rfl⟩), rfl⟩

end Capture

/-! ## What the methods follow -/

section Protocol

open MediaTask

variable {options : MediaJobServiceOptions} {phase : MediaPhase} {jobId attemptId : String}
  {change : MediaChange}

theorem quiet_aborted : Task.Quiet (mediaObserver options.limits) phase (awaiting .aborted) :=
  Task.quiet_perform ⟨trivial, fun _ => rfl⟩

theorem quiet_mediaAborted : Task.Quiet (mediaObserver options.limits) phase MediaTask.throwIfAborted := by
  refine quiet_aborted.bind fun aborted => ?_
  split
  · exact Task.quiet_throw
  · exact Task.quiet_pure

theorem quiet_answering (changed : StoredMediaJob) :
    Task.Quiet (mediaObserver options.limits) phase (answering changed) :=
  quiet_mediaAborted.bind fun _ => Task.quiet_pure

theorem quiet_clock : Task.Quiet (mediaObserver options.limits) phase clock :=
  (Task.quiet_perform ⟨trivial, fun _ => rfl⟩).bind fun _ => Task.quiet_pure

/-- A generated identifier has passed its check. -/
theorem follows_generatedId {kind : MediaIdKind} {s : Unit} :
    Task.Follows (mediaObserver options.limits) (fun p _ result => p = phase ∧
      ∀ id, result = .ok id → mediaIdentifier options.limits.maxIdentifierBytes id = .ok ())
      phase s (generatedId options kind) := by
  refine Task.follows_perform_bind.2 ⟨trivial, fun answer => ?_⟩
  refine Task.follows_ofExcept_bind (fun _ _ => ⟨rfl, nofun⟩) fun id _ => ?_
  refine Task.follows_ofExcept_bind (fun _ _ => ⟨rfl, nofun⟩) fun _ hid => ⟨rfl, ?_⟩
  rintro id' ⟨rfl⟩
  exact hid

theorem quiet_requiredJob : Task.Quiet (mediaObserver options.limits) phase
    (requiredJob options jobId) := by
  refine (Task.quiet_perform ⟨trivial, fun _ => rfl⟩).bind fun job => ?_
  split
  · exact Task.quiet_throw
  · exact Task.quiet_ofExcept.bind fun _ => Task.quiet_pure

theorem quiet_reserve {adapterId : String} : Task.Quiet (mediaObserver options.limits) phase
    (awaiting (.reserve adapterId)) :=
  Task.quiet_perform ⟨trivial, fun _ => rfl⟩

theorem quiet_reserveStart {adapterId : String} {reserved : Bool} :
    Task.Quiet (mediaObserver options.limits) phase (reserveStart adapterId reserved) := by
  unfold reserveStart
  split
  · exact Task.quiet_pure
  · exact quiet_reserve.bind fun _ => Task.quiet_ofExcept

/-- The time that a callback reads is canonical, and its change leads to the next phase. -/
theorem follows_modifyJob (change : MediaChange)
    {Q : MediaPhase → Unit → Except MediaJobError (StoredMediaJob × Bool) → Prop}
    (hfits : change.Fits options.limits)
    (hmarks : ∀ attemptId answer, change = .recordCancellation attemptId answer →
      phase.Marks jobId attemptId)
    (hQ : ∀ now (a : MediaAnswer (.modify jobId change now)),
      Q ((mediaObserver options.limits).next phase (.modify jobId change now) a) () a) :
    Task.Follows (mediaObserver options.limits) Q phase () (modifyJob jobId change) := by
  have hclock : Task.Follows (mediaObserver options.limits) (fun p _ result => p = phase ∧
      ∃ now, result = .ok now ∧ ∀ time, now = .ok time → isCanonicalTimestamp time = true)
      phase () clock := by
    refine Task.follows_perform_bind.2 ⟨trivial, fun a => ⟨rfl, _, rfl, ?_⟩⟩
    intro time htime
    obtain ⟨_, -, h⟩ := bind_eq_ok.1 htime
    obtain ⟨_, hcanonical, h⟩ := bind_eq_ok.1 h
    obtain rfl := return_eq_ok.1 h
    exact demand_eq_ok.1 hcanonical
  rw [modifyJob, Task.follows_bind]
  refine hclock.mono ?_
  rintro p ⟨⟩ result ⟨rfl, now, rfl, hcanonical⟩
  exact Task.follows_perform_bind.2 ⟨⟨hfits, hcanonical, hmarks⟩, hQ now⟩

/-- The change leaves the phase of its call alone. -/
def MediaChange.plain : MediaChange → Prop
  | .claimStart _ aborted => aborted = true
  | .requestCancel _ _ => False
  | _ => True

theorem next_of_plain (hplain : change.plain) (now : Except MediaJobError String)
    (a : MediaAnswer (.modify jobId change now)) :
    (mediaObserver options.limits).next phase (.modify jobId change now) a = phase := by
  cases change with
  | claimStart attemptId aborted =>
    obtain rfl : aborted = true := hplain
    rfl
  | requestCancel expectedRevision attemptId => exact absurd hplain id
  | _ => rfl

/-- A change that leaves the phase alone and records no answer to a cancellation. -/
theorem quiet_changeJob (change : MediaChange) (hfits : change.Fits options.limits) (hplain : change.plain)
    (hmarks : ∀ attemptId answer, change = .recordCancellation attemptId answer →
      phase.Marks jobId attemptId) :
    Task.Quiet (mediaObserver options.limits) phase (changeJob jobId change) := by
  intro s
  rw [changeJob, Task.follows_bind]
  refine follows_modifyJob change hfits hmarks fun now a => ?_
  rw [next_of_plain hplain]
  cases a with
  | error e => exact ⟨rfl, rfl⟩
  | ok a => exact ⟨rfl, rfl⟩

/-! ### Observations -/

theorem quiet_recordOutputFailureOf {completion : MediaCompletion}
    {published : List GeneratedResourceRef} {ordinal : JsInteger} {failure : MediaFailureKind}
    (hresources : ∀ resource ∈ published, captureResource options.limits resource = .ok ())
    (hfailures : ∀ failure ∈ completion.failures,
      outputOrdinal options.limits failure.ordinal = .ok ())
    (hordinal : outputOrdinal options.limits ordinal = .ok ())
    (hhandle : HandleFits options.limits completion.handle)
    (hdistinct : (published.map (·.ordinal.value) ++ ordinal.value ::
      completion.failures.map (·.ordinal.value)).Nodup) :
    Task.Quiet (mediaObserver options.limits) phase
      (recordOutputFailureOf jobId attemptId completion published ordinal failure) := by
  refine quiet_changeJob _ ⟨freezeOutputSettlements_fits hresources ?_ ?_, hhandle⟩ trivial nofun
  · intro other hmem
    rcases List.mem_append.1 hmem with hmem | hmem
    · exact hfailures other hmem
    · exact List.mem_singleton.1 hmem ▸ hordinal
  · rw [List.map_append]
    refine (List.Perm.nodup_iff ?_).1 hdistinct
    exact (List.perm_append_singleton _ _).symm.append_left _

theorem follows_publishResources {completion : MediaCompletion}
    {resources : List MediaProviderResource} {published : List GeneratedResourceRef}
    {totalBytes : Int} {s : Unit}
    (hresources : ∀ resource ∈ resources, ResourceFits options.limits resource)
    (hpublished : ∀ resource ∈ published, captureResource options.limits resource = .ok ())
    (hfailures : ∀ failure ∈ completion.failures,
      outputOrdinal options.limits failure.ordinal = .ok ())
    (hhandle : HandleFits options.limits completion.handle)
    (hsettles : completion.failures = [] ↔ completion.status = .succeeded)
    (hdistinct : (published.map (·.ordinal.value) ++ resources.map (·.ordinal.value) ++
      completion.failures.map (·.ordinal.value)).Nodup) :
    Task.Follows (mediaObserver options.limits) (fun p _ result => p = phase ∧
      ∀ references, result = .ok (.inr references) →
        (∀ resource ∈ references, captureResource options.limits resource = .ok ()) ∧
        references.map (·.ordinal.value) =
          published.map (·.ordinal.value) ++ resources.map (·.ordinal.value))
      phase s (publishResources options jobId attemptId completion published totalBytes resources) := by
  induction resources generalizing published totalBytes with
  | nil =>
    refine ⟨rfl, ?_⟩
    rintro references ⟨rfl⟩
    exact ⟨hpublished, by simp⟩
  | cons resource rest ih =>
    have hresource := hresources resource (List.mem_cons_self ..)
    have hfail : ∀ failure, Task.Quiet (mediaObserver options.limits) phase
        (recordOutputFailureOf jobId attemptId completion published resource.ordinal failure) := by
      intro failure
      refine quiet_recordOutputFailureOf hpublished hfailures hresource.ordinal hhandle ?_
      refine hdistinct.sublist ?_
      rw [List.append_assoc]
      exact (List.Sublist.refl _).append
        (((List.nil_sublist _).cons_cons _).append (List.Sublist.refl _))
    rw [publishResources]
    dsimp only
    split
    · refine (hfail _).follows_bind (fun _ => ⟨rfl, nofun⟩) fun changed => ?_
      exact quiet_mediaAborted.follows_bind (fun _ => ⟨rfl, nofun⟩) fun _ => ⟨rfl, nofun⟩
    · refine Task.follows_perform_bind.2 ⟨trivial, fun answer => ?_⟩
      split
      · refine quiet_aborted.follows_bind (fun _ => ⟨rfl, nofun⟩) fun aborted => ?_
        split
        · have hsettling : Task.Quiet (mediaObserver options.limits) phase
              (changeJob jobId (.recordSettling attemptId completion.status
                (freezeOutputSettlements published completion.failures) completion.handle)) := by
            refine quiet_changeJob _ ⟨freezeOutputSettlements_fits hpublished hfailures ?_, ?_,
              hhandle⟩ trivial nofun
            · refine hdistinct.sublist ?_
              exact (List.sublist_append_left _ _).append (List.Sublist.refl _)
            · exact kindsFit_freezeOutputSettlements hsettles published
          exact hsettling.follows_bind (fun _ => ⟨rfl, nofun⟩) fun _ => ⟨rfl, nofun⟩
        · exact (hfail _).follows_bind (fun _ => ⟨rfl, nofun⟩) fun _ => ⟨rfl, nofun⟩
      · split
        · refine (hfail _).follows_bind (fun _ => ⟨rfl, nofun⟩) fun changed => ?_
          exact quiet_mediaAborted.follows_bind (fun _ => ⟨rfl, nofun⟩) fun _ => ⟨rfl, nofun⟩
        · rename_i captured hcaptured
          obtain ⟨hcaptures, hordinal⟩ :=
            captureResourceReference_fits hresource (min_le_left _ _) hcaptured
          have hordinals : (published ++ [captured]).map (·.ordinal.value) ++
              rest.map (·.ordinal.value) = published.map (·.ordinal.value) ++
              (resource :: rest).map (·.ordinal.value) := by
            simp [hordinal]
          refine (ih (fun other hmem => hresources other (List.mem_cons_of_mem _ hmem)) ?_
            (hordinals ▸ hdistinct)).mono ?_
          · intro other hmem
            rcases List.mem_append.1 hmem with hmem | hmem
            · exact hpublished other hmem
            · exact List.mem_singleton.1 hmem ▸ hcaptures
          · rintro p s' result ⟨rfl, hresult⟩
            refine ⟨rfl, fun references hreferences => ?_⟩
            obtain ⟨hcaptured, hvalues⟩ := hresult references hreferences
            exact ⟨hcaptured, hvalues.trans hordinals⟩

theorem quiet_publishBundleOf {completion : MediaCompletion}
    {resources : List MediaProviderResource} (hfits : CompletionFits options.limits completion.status
      resources completion.failures completion.handle) :
    Task.Quiet (mediaObserver options.limits) phase
      (publishBundleOf options jobId attemptId completion resources) := by
  intro s
  rw [publishBundleOf, Task.follows_bind]
  refine follows_generatedId.mono ?_
  rintro p s' result ⟨rfl, hid⟩
  cases result with
  | error e => exact ⟨rfl, rfl⟩
  | ok bundleId =>
    have hnone : ∀ resource ∈ ([] : List GeneratedResourceRef),
        captureResource options.limits resource = .ok () := fun _ hmem => nomatch hmem
    refine Task.follows_bind.2 ((follows_publishResources hfits.resourceFits hnone
      hfits.failureFits hfits.handleFits hfits.failed_iff
      (by simpa using hfits.distinct)).mono ?_)
    rintro p s' result ⟨rfl, hpublished⟩
    cases result with
    | error e => exact ⟨rfl, rfl⟩
    | ok outcome =>
      cases outcome with
      | inl changed => exact ⟨rfl, rfl⟩
      | inr references =>
        obtain ⟨hcaptured, hvalues⟩ := hpublished references rfl
        rw [List.map_nil, List.nil_append] at hvalues
        have hne : references ≠ [] := by
          rintro rfl
          exact hfits.nonempty (List.map_eq_nil_iff.1 hvalues.symm)
        have hsettlements := freezeOutputSettlements_fits hcaptured hfits.failureFits
          (hvalues ▸ hfits.distinct)
        have hchange : (MediaChange.publishBundle attemptId bundleId completion.status
            (freezeOutputSettlements references completion.failures)
            completion.handle).Fits options.limits :=
          ⟨hid bundleId rfl, hsettlements,
            kindsFit_freezeOutputSettlements hfits.failed_iff references,
            any_resource_freezeOutputSettlements hne _, hfits.handleFits⟩
        exact quiet_changeJob _ hchange trivial nofun _

theorem quiet_applyObservation {value : Option RawObservation} :
    Task.Quiet (mediaObserver options.limits) phase
      (applyObservation options jobId attemptId value) := by
  unfold applyObservation
  cases h : captureObservation options.limits value with
  | error error =>
    have hnone : HandleFits options.limits none := fun _ hvalue => nomatch hvalue
    exact quiet_changeJob (.markFailed ..) hnone trivial nofun
  | ok observation =>
    have hfits := captureObservation_fits h
    cases observation with
    | pending handle => exact quiet_changeJob _ hfits trivial nofun
    | failed failure handle => exact quiet_changeJob _ hfits trivial nofun
    | cancelled handle => exact quiet_changeJob _ hfits trivial nofun
    | completed status resources failures handle => exact quiet_publishBundleOf hfits

/-! ### Methods -/

/-- What is said of a whole call: it follows the observer, whatever it ends with. -/
abbrev CallFollows (observer : Observer MediaEffect MediaAnswer MediaPhase) (phase : MediaPhase)
    (task : MediaTask StoredMediaJob) : Prop :=
  Task.Follows observer (fun _ _ _ => True) phase () task

theorem selectAttempt_eq_ok {job : StoredMediaJob} {selected : Option String}
    {attempt : StoredMediaAttempt} :
    job.selectAttempt selected = .ok attempt ↔ job.attempts.find? (fun candidate =>
      candidate.attemptId = selected.getD job.currentAttemptId) = some attempt := by
  unfold StoredMediaJob.selectAttempt
  dsimp only
  split
  · rename_i hnone
    rw [hnone]
    simp
  · rename_i found hfound
    rw [hfound]
    simp

theorem attemptId_of_select {job : StoredMediaJob} {attempt : StoredMediaAttempt}
    (h : job.selectAttempt (some attemptId) = .ok attempt) : attempt.attemptId = attemptId := by
  simpa using List.find?_some (selectAttempt_eq_ok.1 h)

theorem quiet_giveUpClaim {claimed : Bool} : Task.Quiet (mediaObserver options.limits) phase
    (giveUpClaim jobId attemptId claimed) := by
  unfold giveUpClaim
  split
  · exact (quiet_changeJob (.abandonStart _) trivial trivial nofun).bind fun _ =>
      Task.quiet_pure
  · exact Task.quiet_pure

/-- A call that has claimed an attempt is in the phase that says so. -/
theorem follows_claimAttempt :
    Task.Follows (mediaObserver options.limits) (fun p _ result =>
      ∀ current, result = .ok (current, true) → p = .claimed current attemptId)
      .idle () (claimAttempt jobId attemptId) := by
  refine Task.follows_perform_bind.2 ⟨trivial, fun aborted => ?_⟩
  rw [Task.follows_bind]
  refine follows_modifyJob (.claimStart _ _) trivial nofun fun now a => ?_
  cases a with
  | error e => exact nofun
  | ok a =>
    obtain ⟨job, wrote⟩ := a
    rintro current hcurrent
    obtain ⟨rfl, hclaimed⟩ := Prod.mk.inj (Except.ok.inj hcurrent)
    obtain ⟨rfl, haborted⟩ := Bool.and_eq_true_iff.1 hclaimed
    obtain rfl : aborted = false := by simpa using haborted
    rfl

theorem callFollows_startClaimed {current : StoredMediaJob} :
    CallFollows (mediaObserver options.limits) (.claimed current attemptId)
      (startClaimed options jobId attemptId current) := by
  refine Task.quiet_ofExcept.follows_bind (fun _ => trivial) fun _ => ?_
  refine Task.follows_ofExcept_bind (fun _ _ => trivial) fun attempt hattempt => ?_
  refine Task.follows_perform_bind.2 ⟨⟨current, ?_, rfl⟩, fun answer => ?_⟩
  · rw [operationContext, attemptId_of_select hattempt]
  · cases answer with
    | error e =>
      exact ((quiet_changeJob (.markUnknown _) trivial trivial nofun).bind
        quiet_answering).follows fun _ => trivial
    | ok observation =>
      exact (quiet_applyObservation.bind quiet_answering).follows fun _ => trivial

theorem callFollows_startAttempt {reserved : Bool} :
    CallFollows (mediaObserver options.limits) .idle (startAttempt options jobId attemptId reserved) := by
  refine quiet_requiredJob.follows_bind (fun _ => trivial) fun before => ?_
  refine quiet_reserveStart.follows_bind (fun _ => trivial) fun _ => ?_
  refine Task.follows_perform_bind.2 ⟨trivial, fun _ => ?_⟩
  refine Task.follows_bind.2 (follows_claimAttempt.mono ?_)
  rintro p ⟨⟩ result hclaim
  cases result with
  | error e => trivial
  | ok result =>
    obtain ⟨current, claimed⟩ := result
    refine quiet_aborted.follows_bind (fun _ => trivial) fun aborted => ?_
    split
    · exact quiet_giveUpClaim.follows_bind (fun _ => trivial) fun _ => trivial
    · split
      · rename_i hclaimed
        subst hclaimed
        obtain rfl := hclaim current rfl
        exact callFollows_startClaimed
      · trivial

theorem callFollows_submitJob {adapterId : String} {draft : MediaJobDraft} :
    CallFollows (mediaObserver options.limits) .idle (submitJob options adapterId draft) := by
  refine Task.quiet_ofExcept.follows_bind (fun _ => trivial) fun _ => ?_
  refine Task.quiet_ofExcept.follows_bind (fun _ => trivial) fun _ => ?_
  refine Task.quiet_ofExcept.follows_bind (fun _ => trivial) fun request => ?_
  refine quiet_mediaAborted.follows_bind (fun _ => trivial) fun _ => ?_
  refine quiet_clock.follows_bind (fun _ => trivial) fun now => ?_
  refine Task.quiet_ofExcept.follows_bind (fun _ => trivial) fun recordedAt => ?_
  refine Task.follows_bind.2 (follows_generatedId.mono ?_)
  rintro p ⟨⟩ result ⟨rfl, -⟩
  cases result with
  | error e => trivial
  | ok attemptId =>
    refine Task.follows_bind.2 (follows_generatedId.mono ?_)
    rintro p ⟨⟩ result ⟨rfl, -⟩
    cases result with
    | error e => trivial
    | ok submissionKey =>
      refine quiet_reserve.follows_bind (fun _ => trivial) fun _ => ?_
      refine Task.quiet_ofExcept.follows_bind (fun _ => trivial) fun _ => ?_
      refine Task.follows_perform_bind.2
        ⟨⟨recordedAt, attemptId, submissionKey, rfl, rfl⟩, fun _ => ?_⟩
      exact Task.quiet_ofExcept.follows_bind (fun _ => trivial) fun _ => callFollows_startAttempt

theorem quiet_providerAdmission {adapterId : String} :
    Task.Quiet (mediaObserver options.limits) phase (providerAdmission adapterId) :=
  quiet_reserve.bind fun _ => Task.quiet_ofExcept.bind fun _ =>
    (Task.quiet_perform ⟨trivial, fun _ => rfl⟩).bind fun _ => quiet_mediaAborted

theorem callFollows_reconcileJob {control : MediaJobControl} :
    CallFollows (mediaObserver options.limits) .idle (reconcileJob options control) := by
  refine Task.quiet_ofExcept.follows_bind (fun _ => trivial) fun _ => ?_
  refine quiet_mediaAborted.follows_bind (fun _ => trivial) fun _ => ?_
  refine quiet_requiredJob.follows_bind (fun _ => trivial) fun current => ?_
  refine quiet_mediaAborted.follows_bind (fun _ => trivial) fun _ => ?_
  refine Task.quiet_ofExcept.follows_bind (fun _ => trivial) fun adapter => ?_
  refine Task.quiet_ofExcept.follows_bind (fun _ => trivial) fun _ => ?_
  refine Task.quiet_ofExcept.follows_bind (fun _ => trivial) fun attempt => ?_
  split
  · trivial
  split
  · exact callFollows_startAttempt
  split
  · exact ((quiet_changeJob (.recoverInterruptedSubmission _) trivial trivial nofun).bind
      quiet_answering).follows fun _ => trivial
  split
  · trivial
  split
  · trivial
  refine quiet_providerAdmission.follows_bind (fun _ => trivial) fun _ => ?_
  refine Task.follows_perform_bind.2 ⟨trivial, fun answer => ?_⟩
  cases answer with
  | error e =>
    exact ((quiet_changeJob (.markUnknown _) trivial trivial nofun).bind
      quiet_answering).follows fun _ => trivial
  | ok observation =>
    exact (quiet_applyObservation.bind quiet_answering).follows fun _ => trivial

/-- The answer to a cancellation is recorded for the attempt that has been marked. -/
theorem quiet_record {answer : CancellationAnswer} (h : phase.Marks jobId attemptId) :
    Task.Quiet (mediaObserver options.limits) phase
      (do answering (← changeJob jobId (.recordCancellation attemptId answer))) := by
  refine (quiet_changeJob (.recordCancellation _ _) trivial trivial ?_).bind
    quiet_answering
  rintro id answer' ⟨rfl, rfl⟩
  exact h

theorem callFollows_cancelJob {control : MediaJobControl} :
    CallFollows (mediaObserver options.limits) .idle (cancelJob options control) := by
  refine Task.quiet_ofExcept.follows_bind (fun _ => trivial) fun _ => ?_
  refine quiet_mediaAborted.follows_bind (fun _ => trivial) fun _ => ?_
  rw [Task.follows_bind, changeJob, Task.follows_bind]
  refine follows_modifyJob (.requestCancel _ _) trivial nofun fun now a => ?_
  cases a with
  | error e => trivial
  | ok a =>
    obtain ⟨marked, wrote⟩ := a
    change CallFollows (mediaObserver options.limits) (.marked marked control.attemptId) _
    refine Task.quiet_ofExcept.follows_bind (fun _ => trivial) fun adapter => ?_
    refine Task.follows_ofExcept_bind (fun _ _ => trivial) fun attempt hattempt => ?_
    refine quiet_mediaAborted.follows_bind (fun _ => trivial) fun _ => ?_
    split
    · trivial
    rename_i hopen
    split
    · trivial
    split
    · trivial
    rename_i handle hhandle
    have hmarks : MediaPhase.Marks (.marked marked control.attemptId) marked.jobId
        attempt.attemptId :=
      ⟨marked, control.attemptId, attempt, rfl, rfl, hattempt, rfl, Bool.eq_false_iff.2 hopen,
        hhandle ▸ rfl⟩
    dsimp only
    split
    · exact (quiet_record hmarks).follows fun _ => trivial
    refine quiet_providerAdmission.follows_bind (fun _ => trivial) fun _ => ?_
    refine Task.follows_perform_bind.2 ⟨trivial, fun answer => ?_⟩
    split
    · exact (quiet_record hmarks).follows fun _ => trivial
    · exact (quiet_applyObservation.bind quiet_answering).follows fun _ => trivial
    · exact (quiet_record hmarks).follows fun _ => trivial
    · exact (quiet_record hmarks).follows fun _ => trivial

theorem callFollows_restartJob {expectedRevision : Option String} :
    CallFollows (mediaObserver options.limits) .idle (restartJob options jobId expectedRevision) := by
  refine Task.quiet_ofExcept.follows_bind (fun _ => trivial) fun _ => ?_
  refine quiet_mediaAborted.follows_bind (fun _ => trivial) fun _ => ?_
  refine quiet_requiredJob.follows_bind (fun _ => trivial) fun before => ?_
  refine Task.quiet_ofExcept.follows_bind (fun _ => trivial) fun _ => ?_
  refine Task.follows_bind.2 (follows_generatedId.mono ?_)
  rintro p ⟨⟩ result ⟨rfl, hattemptId⟩
  cases result with
  | error e => trivial
  | ok attemptId =>
    refine Task.follows_bind.2 (follows_generatedId.mono ?_)
    rintro p ⟨⟩ result ⟨rfl, hsubmissionKey⟩
    cases result with
    | error e => trivial
    | ok submissionKey =>
      refine quiet_reserve.follows_bind (fun _ => trivial) fun _ => ?_
      refine Task.quiet_ofExcept.follows_bind (fun _ => trivial) fun _ => ?_
      have hchange : (MediaChange.addAttempt expectedRevision attemptId submissionKey).Fits
          options.limits := ⟨hattemptId _ rfl, hsubmissionKey _ rfl⟩
      refine (quiet_changeJob _ hchange trivial nofun).follows_bind (fun _ => trivial)
        fun restarted => ?_
      exact callFollows_startAttempt

/-- Every method of the service follows the observer. -/
theorem follows_mediaBody (method : MediaMethod) :
    (method.body options).Follows (mediaObserver options.limits) (fun _ _ => True) .idle := by
  have hstart : ∀ {task : MediaTask StoredMediaJob}, CallFollows (mediaObserver options.limits) .idle task →
      (task.start ()).Follows (mediaObserver options.limits) (fun _ _ => True) .idle :=
    fun h => (Task.Follows.start h).mono fun _ _ _ => trivial
  cases method with
  | submit adapterId draft => exact hstart callFollows_submitJob
  | reconcile control => exact hstart callFollows_reconcileJob
  | cancel control => exact hstart callFollows_cancelJob
  | restart jobId expectedRevision => exact hstart callFollows_restartJob

end Protocol

end OpenGameAgent
