import OpenGameAgent.Extensions.Schedules

/-!
# Validation of schedule requests

The rest of `packages/extensions/src/schedule-validation.ts`.  A request that passes is
given back as the code holds it from then on, with its decimals checked and its
identifiers sorted.

* `normalizeGameSchedule_spec` — what holds of an accepted schedule: a repeating one has a
  positive interval, a one-shot at most one occurrence.
* `normalizeScheduleAdvance_spec` — an accepted advance goes forward.
-/

namespace OpenGameAgent

/-! ## Fields -/

/-- `validateScheduleIdentifier`. -/
def validateScheduleIdentifier (value : String) (maximumBytes : Nat) (name : String) :
    Except ScheduleError Unit := do
  require (isOpaqueIdentifier value) (.validation s!"invalid_schedule_{name}")
  require (value.utf8ByteSize ≤ maximumBytes) (.validation s!"schedule_{name}_too_large")

def validateScheduleIdentifiers (maximumBytes : Nat) (name : String) :
    List String → Except ScheduleError Unit
  | [] => .ok ()
  | value :: rest => do
    validateScheduleIdentifier value maximumBytes name
    validateScheduleIdentifiers maximumBytes name rest

/-- An identifier that may be absent. -/
def validateScheduleIdentifier? (value : Option String) (maximumBytes : Nat) (name : String) :
    Except ScheduleError Unit :=
  match value with
  | none => .ok ()
  | some value => validateScheduleIdentifier value maximumBytes name

def validateScheduleTimestamp (value : String) : Except ScheduleError Unit :=
  require (isCanonicalTimestamp value) (.validation "invalid_schedule_timestamp")

/-- `validateSchedulePageLimit`, of a limit that is not negative. -/
def validateSchedulePageLimit (value maximum : Nat) (code : String) : Except ScheduleError Unit :=
  require (value ≤ maxSafeInteger && 1 ≤ value && value ≤ maximum) (.validation code)

/-- `validatePositiveScheduleKey`. -/
def validatePositiveScheduleKey (value : Nat) (name : String) : Except ScheduleError Unit :=
  require (1 ≤ value) (.validation s!"invalid_schedule_{name}")

/-- The fields of `LIMIT_NAMES`, each a positive integer. -/
def ScheduleLimits.named (limits : ScheduleLimits) : List (String × Nat) :=
  [("maxIdentifierBytes", limits.maxIdentifierBytes), ("maxPayloadBytes", limits.maxPayloadBytes),
    ("maxSubjectsPerSchedule", limits.maxSubjectsPerSchedule),
    ("maxCausesPerSchedule", limits.maxCausesPerSchedule),
    ("maxTickDigits", limits.maxTickDigits), ("maxCounterDigits", limits.maxCounterDigits),
    ("maxActiveSchedulesPerTimelineGeneration", limits.maxActiveSchedulesPerTimelineGeneration),
    ("maxOccurrencesPerAdvance", limits.maxOccurrencesPerAdvance),
    ("maxPendingOccurrencesPerTimelineGeneration",
      limits.maxPendingOccurrencesPerTimelineGeneration),
    ("maxSchedulePageSize", limits.maxSchedulePageSize),
    ("maxOccurrencePageSize", limits.maxOccurrencePageSize),
    ("maxClaimBatchSize", limits.maxClaimBatchSize),
    ("maxPurgeBatchSize", limits.maxPurgeBatchSize)]

def validateLimitNames : List (String × Nat) → Except ScheduleError Unit
  | [] => .ok ()
  | (name, value) :: rest => do
    require (1 ≤ value && value < maxSafeInteger) (.validation s!"invalid_schedule_limit:{name}")
    validateLimitNames rest

/-- `validateScheduleLimits`. -/
def validateScheduleLimits (limits : ScheduleLimits) : Except ScheduleError Unit :=
  validateLimitNames limits.named

theorem validateLimitNames_eq_ok_iff {names : List (String × Nat)} :
    validateLimitNames names = .ok () ↔
      ∀ entry ∈ names, 1 ≤ entry.2 ∧ entry.2 < maxSafeInteger := by
  induction names with
  | nil => simp [validateLimitNames]
  | cons entry rest ih =>
    simp [validateLimitNames, bind_eq_ok, ih]

/-! ## Partitions and lanes -/

/-- `normalizeSchedulePartition`. -/
def normalizeSchedulePartition (partition : SchedulePartition) (limits : ScheduleLimits) :
    Except ScheduleError SchedulePartition := do
  validateScheduleIdentifier partition.ownerId limits.maxIdentifierBytes "owner_id"
  validateScheduleIdentifier partition.timelineId limits.maxIdentifierBytes "timeline_id"
  let _ ← validateScheduleDecimal partition.generation "generation" limits.maxCounterDigits
  validateScheduleIdentifier? partition.sessionId limits.maxIdentifierBytes "session_id"
  validateScheduleIdentifier? partition.actorId limits.maxIdentifierBytes "actor_id"
  return partition

/-- `captureWorkAuthorityLane`. -/
def captureWorkAuthorityLane (lane : WorkAuthorityLane) : Except ScheduleError WorkAuthorityLane :=
  if isOpaqueIdentifier lane.ownerId && isOpaqueIdentifier lane.timelineId &&
      areDecimalDigits lane.generation.toList && isOpaqueIdentifier lane.sessionId &&
      isOpaqueIdentifier lane.actorId then .ok lane
  else .error (.type "Invalid work authority lane.")

/-- `captureWorkAuthorityRetirementRequest`. -/
def captureWorkAuthorityRetirementRequest (input : WorkAuthorityRetirementRequest) :
    Except ScheduleError WorkAuthorityRetirementRequest := do
  let partition ← captureWorkAuthorityLane input.partition
  require (isOpaqueIdentifier input.retirementId && hasTimestampPattern input.recordedAt)
    (.type "Invalid work authority retirement.")
  require (isCanonicalTimestamp input.recordedAt) .invalidTimestamp
  return { input with partition := partition }

/-- `normalizeScheduleAuthorityLane`. -/
def normalizeScheduleAuthorityLane (input : WorkAuthorityLane) (limits : ScheduleLimits) :
    Except ScheduleError WorkAuthorityLane := do
  let lane ← captureWorkAuthorityLane input
  let _ ← normalizeSchedulePartition lane.partition limits
  return lane

/-- `normalizeScheduleAuthorityRetirement`. -/
def normalizeScheduleAuthorityRetirement (input : WorkAuthorityRetirementRequest)
    (limits : ScheduleLimits) : Except ScheduleError WorkAuthorityRetirementRequest := do
  let request ← captureWorkAuthorityRetirementRequest input
  let _ ← normalizeScheduleAuthorityLane request.partition limits
  validateScheduleIdentifier request.retirementId limits.maxIdentifierBytes "retirement_id"
  return request

/-! ## Schedules and advances -/

/-- `assertGameTime`. -/
def isGameTime (time : GameTime String) : Bool :=
  isOpaqueIdentifier time.timelineId && areDecimalDigits time.generation.toList &&
    areDecimalDigits time.tick.toList

/-- `normalizeScheduleGameTime`. -/
def normalizeScheduleGameTime (time : GameTime String) (partition : ScheduleGeneration)
    (maxTickDigits : Nat) : Except ScheduleError (GameTime Decimal) := do
  require (isGameTime time) (.validation "invalid_schedule_game_time")
  require (time.timelineId = partition.timelineId && time.generation = partition.generation)
    (.validation "schedule_time_partition_mismatch")
  let tick ← validateScheduleDecimal time.tick "tick" maxTickDigits
  return { time with tick := tick }

/-- `normalizeScheduleIdentifiers`; in the sorted list a repeated one follows its copy. -/
def normalizeScheduleIdentifiers (values : List String) (maximumItems maximumBytes : Nat)
    (name : String) : Except ScheduleError (List String) := do
  require (values.length ≤ maximumItems) (.validation s!"too_many_schedule_{name}")
  validateScheduleIdentifiers maximumBytes name values
  require values.Nodup (.validation s!"duplicate_schedule_{name}")
  return values.insertionSort textLe

/-- A positive decimal that may be absent. -/
def validatePositiveScheduleDecimal? (value : Option String) (name : String)
    (maximumDigits : Nat) : Except ScheduleError (Option Decimal) :=
  match value with
  | none => .ok none
  | some value => return some (← validatePositiveScheduleDecimal value name maximumDigits)

/-- A schedule without an interval occurs once. -/
def scheduleMaximumOccurrences (intervalTicks maximumOccurrences : Option Decimal) :
    Except ScheduleError (Option Decimal) :=
  if intervalTicks.isSome then .ok maximumOccurrences
  else if maximumOccurrences.all fun maximum => maximum.text = "1" then .ok (some (.ofNat 1))
  else .error (.validation "invalid_one_shot_maximum_occurrences")

/-- `normalizeGameSchedule`. -/
def normalizeGameSchedule (input : GameScheduleDraft String) (limits : ScheduleLimits) :
    Except ScheduleError (GameScheduleDraft Decimal) := do
  validateScheduleIdentifier input.scheduleId limits.maxIdentifierBytes "schedule_id"
  let partition ← normalizeSchedulePartition input.partition limits
  validateScheduleIdentifier input.kind limits.maxIdentifierBytes "kind"
  require (jsonBytes input.payload ≤ limits.maxPayloadBytes)
    (.validation "schedule_payload_too_large")
  let dueTime ←
    normalizeScheduleGameTime input.dueTime partition.toScheduleGeneration limits.maxTickDigits
  let intervalTicks ←
    validatePositiveScheduleDecimal? input.intervalTicks "interval_ticks" limits.maxTickDigits
  let maximumOccurrences ← validatePositiveScheduleDecimal? input.maximumOccurrences
    "maximum_occurrences" limits.maxCounterDigits
  let maximumOccurrences ← scheduleMaximumOccurrences intervalTicks maximumOccurrences
  let subjectIds ← normalizeScheduleIdentifiers input.subjectIds limits.maxSubjectsPerSchedule
    limits.maxIdentifierBytes "subjects"
  let causeIds ← normalizeScheduleIdentifiers input.causeIds limits.maxCausesPerSchedule
    limits.maxIdentifierBytes "causes"
  validateScheduleTimestamp input.recordedAt
  return {
    scheduleId := input.scheduleId
    partition := partition
    kind := input.kind
    payload := input.payload
    dueTime := dueTime
    intervalTicks := intervalTicks
    maximumOccurrences := maximumOccurrences
    subjectIds := subjectIds
    causeIds := causeIds
    recordedAt := input.recordedAt }

/-- `normalizeScheduleAdvance`, which keeps the generation of the partition it is given. -/
def normalizeScheduleAdvance (input : ScheduleAdvanceDraft String) (limits : ScheduleLimits) :
    Except ScheduleError (ScheduleAdvanceDraft Decimal) := do
  validateScheduleIdentifier input.advanceId limits.maxIdentifierBytes "advance_id"
  let partition ← normalizeSchedulePartition
    { input.partition with sessionId := none, actorId := none } limits
  let fromExclusive ← normalizeScheduleGameTime input.fromExclusive
    partition.toScheduleGeneration limits.maxTickDigits
  let toInclusive ← normalizeScheduleGameTime input.toInclusive
    partition.toScheduleGeneration limits.maxTickDigits
  require (!scheduleDecimalLe toInclusive.tick fromExclusive.tick)
    (.validation "schedule_advance_not_forward")
  validateScheduleTimestamp input.recordedAt
  return {
    advanceId := input.advanceId
    partition := partition.toScheduleGeneration
    fromExclusive := fromExclusive
    toInclusive := toInclusive
    recordedAt := input.recordedAt }

/-- `normalizeScheduleClaim`. -/
def normalizeScheduleClaim (request : ScheduleOccurrenceClaimRequest) (limits : ScheduleLimits) :
    Except ScheduleError ScheduleOccurrenceClaimRequest := do
  let _ ← normalizeSchedulePartition request.toSchedulePartition limits
  validateScheduleIdentifier request.leaseOwnerId limits.maxIdentifierBytes "lease_owner_id"
  validateScheduleTimestamp request.operationalNow
  validateScheduleTimestamp request.leaseExpiresAt
  require (request.operationalNow < request.leaseExpiresAt)
    (.validation "invalid_schedule_lease_window")
  validateSchedulePageLimit request.limit limits.maxClaimBatchSize "invalid_schedule_claim_limit"
  return request

/-- `validateGameScheduleKey`. -/
def validateGameScheduleKey (key : GameScheduleKey) (limits : ScheduleLimits) :
    Except ScheduleError GameScheduleKey := do
  let _ ← normalizeSchedulePartition
    { key.toScheduleGeneration with sessionId := none, actorId := none } limits
  validateScheduleIdentifier key.scheduleId limits.maxIdentifierBytes "schedule_id"
  return key

/-- `validateScheduledOccurrenceSequenceKey`. -/
def validateScheduledOccurrenceSequenceKey (key : ScheduledOccurrenceSequenceKey)
    (limits : ScheduleLimits) : Except ScheduleError ScheduledOccurrenceSequenceKey := do
  let _ ← normalizeSchedulePartition
    { key.toScheduleGeneration with sessionId := none, actorId := none } limits
  validatePositiveScheduleKey key.occurrenceKey "occurrence_key"
  return key

/-- `laterScheduleTimestamp`. -/
def laterScheduleTimestamp (left right : String) : Except ScheduleError String := do
  validateScheduleTimestamp left
  validateScheduleTimestamp right
  return if left < right then right else left

/-! ## Fingerprints -/

def SchedulePartition.toJson (p : SchedulePartition) : JsonValue :=
  .record [("ownerId", some (.text p.ownerId)), ("timelineId", some (.text p.timelineId)),
    ("generation", some (.text p.generation)), ("sessionId", p.sessionId.map .text),
    ("actorId", p.actorId.map .text)]

def GameTime.toJson (time : GameTime Decimal) : JsonValue :=
  .record [("timelineId", some (.text time.timelineId)),
    ("generation", some (.text time.generation)), ("tick", some (.text time.tick.text))]

def scheduleIdentifiersJson (values : List String) : JsonValue :=
  .array (values.map .text)

def GameScheduleDraft.toJson (schedule : GameScheduleDraft Decimal) : JsonValue :=
  .record [("scheduleId", some (.text schedule.scheduleId)),
    ("partition", some schedule.partition.toJson), ("kind", some (.text schedule.kind)),
    ("payload", some schedule.payload), ("dueTime", some schedule.dueTime.toJson),
    ("intervalTicks", schedule.intervalTicks.map fun ticks => .text ticks.text),
    ("maximumOccurrences", schedule.maximumOccurrences.map fun maximum => .text maximum.text),
    ("subjectIds", some (scheduleIdentifiersJson schedule.subjectIds)),
    ("causeIds", some (scheduleIdentifiersJson schedule.causeIds)),
    ("recordedAt", some (.text schedule.recordedAt))]

def ScheduleAdvanceDraft.toJson (advance : ScheduleAdvanceDraft Decimal) : JsonValue :=
  .record [("advanceId", some (.text advance.advanceId)),
    ("partition", some
      (SchedulePartition.mk advance.partition none none).toJson),
    ("fromExclusive", some advance.fromExclusive.toJson),
    ("toInclusive", some advance.toInclusive.toJson),
    ("recordedAt", some (.text advance.recordedAt))]

/-- `scheduleFingerprint`. -/
def scheduleFingerprint (schedule : GameScheduleDraft Decimal) : List UInt16 :=
  canonicalizeJsonValue schedule.toJson

/-- `scheduleAdvanceFingerprint`. -/
def scheduleAdvanceFingerprint (advance : ScheduleAdvanceDraft Decimal) : List UInt16 :=
  canonicalizeJsonValue advance.toJson

/-! ## What an accepted request satisfies -/

theorem validatePositiveScheduleDecimal_eq_ok {value name : String} {maximumDigits : Nat}
    {d : Decimal} (h : validatePositiveScheduleDecimal value name maximumDigits = .ok d) :
    d.text.length ≤ maximumDigits ∧ 0 < d.value := by
  simp only [validatePositiveScheduleDecimal, bind_eq_ok,
    validateScheduleDecimal_eq_ok_iff] at h
  obtain ⟨d', ⟨htext, hlen⟩, h⟩ := h
  split at h
  · cases h
  · rename_i hzero
    obtain rfl := return_eq_ok.1 h
    refine ⟨htext ▸ hlen, Nat.pos_of_ne_zero fun hvalue => hzero ?_⟩
    have hd : d = .ofNat 0 := Decimal.value_injective (by rw [hvalue, Decimal.value_ofNat])
    rw [← htext, hd]
    decide

/-- What `normalizeGameSchedule` makes sure of. -/
structure GameScheduleDraft.Accepted (limits : ScheduleLimits)
    (schedule : GameScheduleDraft Decimal) : Prop where
  dueTime : schedule.dueTime.tick.text.length ≤ limits.maxTickDigits
  interval : ∀ ticks, schedule.intervalTicks = some ticks → 0 < ticks.value
  maximum : ∀ m, schedule.maximumOccurrences = some m → 0 < m.value
  oneShot : schedule.intervalTicks = none → schedule.maximumOccurrences = some (.ofNat 1)
  recordedAt : isCanonicalTimestamp schedule.recordedAt = true

theorem validatePositiveScheduleDecimal?_eq_ok {value : Option String} {name : String}
    {maximumDigits : Nat} {r : Option Decimal}
    (h : validatePositiveScheduleDecimal? value name maximumDigits = .ok r) {d : Decimal}
    (hd : r = some d) : d.text.length ≤ maximumDigits ∧ 0 < d.value := by
  subst hd
  unfold validatePositiveScheduleDecimal? at h
  split at h
  · cases h
  · rw [bind_eq_ok] at h
    obtain ⟨d', hd', h⟩ := h
    cases return_eq_ok.1 h
    exact validatePositiveScheduleDecimal_eq_ok hd'

theorem normalizeScheduleGameTime_eq_ok {time : GameTime String} {partition : ScheduleGeneration}
    {maxTickDigits : Nat} {r : GameTime Decimal}
    (h : normalizeScheduleGameTime time partition maxTickDigits = .ok r) :
    r.tick.text.length ≤ maxTickDigits := by
  simp only [normalizeScheduleGameTime, bind_eq_ok, validateScheduleDecimal_eq_ok_iff] at h
  obtain ⟨_, -, _, -, tick, ⟨htext, hlen⟩, h⟩ := h
  obtain rfl := return_eq_ok.1 h
  exact htext ▸ hlen

theorem normalizeSchedulePartition_eq_ok {partition r : SchedulePartition}
    {limits : ScheduleLimits} (h : normalizeSchedulePartition partition limits = .ok r) :
    r = partition := by
  simp only [normalizeSchedulePartition, bind_eq_ok] at h
  obtain ⟨_, -, _, -, _, -, _, -, _, -, h⟩ := h
  exact return_eq_ok.1 h

theorem scheduleMaximumOccurrences_eq_ok {intervalTicks maximum r : Option Decimal}
    (h : scheduleMaximumOccurrences intervalTicks maximum = .ok r) :
    (intervalTicks ≠ none ∧ r = maximum) ∨ (intervalTicks = none ∧ r = some (.ofNat 1)) := by
  unfold scheduleMaximumOccurrences at h
  cases hinterval : intervalTicks with
  | some ticks =>
    rw [hinterval, Option.isSome_some, if_pos rfl] at h
    cases h
    exact Or.inl ⟨nofun, rfl⟩
  | none =>
    rw [hinterval, Option.isSome_none, if_neg Bool.false_ne_true] at h
    split at h
    · cases h
      exact Or.inr ⟨rfl, rfl⟩
    · cases h

theorem normalizeGameSchedule_spec {input : GameScheduleDraft String} {limits : ScheduleLimits}
    {schedule : GameScheduleDraft Decimal} (h : normalizeGameSchedule input limits = .ok schedule) :
    schedule.Accepted limits ∧ schedule.scheduleId = input.scheduleId ∧
      schedule.partition = input.partition := by
  simp only [normalizeGameSchedule, bind_eq_ok] at h
  obtain ⟨_, -, partition, hpartition, _, -, _, -, dueTime, hdue, intervalTicks, hinterval,
    maximum, hmaximum, maximum', hone, subjectIds, -, causeIds, -, _, hrecorded, h⟩ := h
  obtain rfl := return_eq_ok.1 h
  rw [validateScheduleTimestamp, require_eq_ok] at hrecorded
  have hmax := scheduleMaximumOccurrences_eq_ok hone
  refine ⟨⟨normalizeScheduleGameTime_eq_ok hdue,
    fun ticks hticks => (validatePositiveScheduleDecimal?_eq_ok hinterval hticks).2, ?_, ?_,
    hrecorded⟩, rfl, normalizeSchedulePartition_eq_ok hpartition⟩
  · intro m hm
    dsimp only at hm
    rcases hmax with ⟨-, heq⟩ | ⟨-, heq⟩
    · exact (validatePositiveScheduleDecimal?_eq_ok hmaximum (heq ▸ hm)).2
    · cases heq.symm.trans hm
      rw [Decimal.value_ofNat]
      exact Nat.one_pos
  · intro hnone
    rcases hmax with ⟨hsome, -⟩ | ⟨-, heq⟩
    · exact absurd hnone hsome
    · exact heq

/-- What `normalizeScheduleAdvance` makes sure of. -/
structure ScheduleAdvanceDraft.Accepted (limits : ScheduleLimits)
    (advance : ScheduleAdvanceDraft Decimal) : Prop where
  forward : advance.fromExclusive.tick.value < advance.toInclusive.tick.value
  toInclusive : advance.toInclusive.tick.text.length ≤ limits.maxTickDigits
  recordedAt : isCanonicalTimestamp advance.recordedAt = true

theorem normalizeScheduleAdvance_spec {input : ScheduleAdvanceDraft String}
    {limits : ScheduleLimits} {advance : ScheduleAdvanceDraft Decimal}
    (h : normalizeScheduleAdvance input limits = .ok advance) :
    advance.Accepted limits ∧ advance.advanceId = input.advanceId ∧
      advance.partition = input.partition := by
  simp only [normalizeScheduleAdvance, bind_eq_ok, require_eq_ok, Bool.not_eq_true'] at h
  obtain ⟨_, -, partition, hpartition, fromExclusive, -, toInclusive, hto, _, hforward, _,
    hrecorded, h⟩ := h
  obtain rfl := return_eq_ok.1 h
  obtain rfl := normalizeSchedulePartition_eq_ok hpartition
  rw [validateScheduleTimestamp, require_eq_ok] at hrecorded
  have hlt : ¬ toInclusive.tick.value ≤ fromExclusive.tick.value := by
    rw [← scheduleDecimalLe_iff, hforward]
    decide
  exact ⟨⟨not_le.1 hlt, normalizeScheduleGameTime_eq_ok hto, hrecorded⟩, rfl, rfl⟩

end OpenGameAgent
