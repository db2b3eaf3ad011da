import OpenGameAgent.Extensions.ScheduleValidation

/-!
# Game signals and signal waits

The types of `packages/extensions/src/signal-types.ts`, the errors of `signal-errors.ts`
and the checks of `signal-validation.ts`.  A partition of signals has the fields of a
partition of schedules and shares its type.

A draft comes with its ticks as texts and leaves the checks with canonical decimals.
A request's page limit is a natural number; the other numbers fail its check.

* `signalWaitMatches` — whether a signal is what a wait waits for.
* `normalizeGameSignal_recordedAt`, `normalizeSignalWait_recordedAt` — an accepted draft
  has a canonical timestamp.
* `laterSignalTimestamp_eq_ok` — the later of two canonical timestamps is one of them.
-/

namespace OpenGameAgent

/-! ## Signals -/

abbrev SignalPartition := SchedulePartition

/-- `Pick<SignalPartition, "ownerId" | "timelineId" | "generation">`. -/
abbrev SignalGeneration := ScheduleGeneration

structure GameSignalDraft (δ : Type) where
  signalId : String
  partition : SignalPartition
  kind : String
  payload : JsonValue
  gameTime : GameTime δ
  subjectIds : List String
  causeIds : List String
  recordedAt : String
  deriving DecidableEq

structure GameSignalRecord extends GameSignalDraft Decimal where
  signalKey : Nat
  deriving DecidableEq

structure GameSignalKey extends SignalGeneration where
  signalId : String
  deriving DecidableEq, Repr

/-! ## Waits -/

structure SignalWaitSelector (δ : Type) where
  kinds : List String
  subjectIdsAny : Option (List String)
  afterSignalKey : Option Int
  afterTickExclusive : Option δ
  throughTickInclusive : Option δ
  deriving DecidableEq

inductive SignalWaitTarget where
  | goalStep (goalId stepId : String)
  | correlation (correlationId : String)
  deriving DecidableEq, Repr

structure SignalWaitDraft (δ : Type) where
  waitId : String
  partition : SignalPartition
  selector : SignalWaitSelector δ
  target : SignalWaitTarget
  recordedAt : String
  deriving DecidableEq

inductive SignalWaitStatus where
  | waiting | matched | cancelled | expired
  deriving DecidableEq, Repr

structure SignalWaitRecord extends SignalWaitDraft Decimal where
  waitKey : Nat
  status : SignalWaitStatus
  revision : Decimal
  matchedSignalKey : Option Nat
  createdAt : String
  updatedAt : String
  deriving DecidableEq

structure SignalWaitKey extends SignalGeneration where
  waitId : String
  deriving DecidableEq, Repr

structure SignalLimits where
  maxPayloadBytes : Nat
  maxSubjectsPerSignal : Nat
  maxCausesPerSignal : Nat
  maxSignalFilterKinds : Nat
  maxWaitKinds : Nat
  maxWaitSubjects : Nat
  maxWaitMatchesPerSignal : Nat
  maxSignalPageSize : Nat
  maxWaitPageSize : Nat
  maxExpireBatchSize : Nat
  maxPurgeBatchSize : Nat

/-! ## Errors -/

/-- What a signal service throws; `protocol` is the error of the protocol's own checks. -/
inductive SignalError where
  | validation (code : String)
  | protocol (code : String)
  | conflict
  | waitConflict
  | waitNotFound
  | waitRevisionConflict
  | waitTerminal
  | waitFanout
  deriving DecidableEq, Repr

/-! ## Fields -/

/-- `assertOpaqueIdentifier`. -/
def assertSignalIdentifier (value : String) : Except SignalError Unit :=
  demand (isOpaqueIdentifier value) (.protocol "invalid_identifier")

/-- `assertOpaqueIdentifier` of an identifier that may be absent. -/
def assertSignalIdentifier? (value : Option String) : Except SignalError Unit :=
  demand (value.all isOpaqueIdentifier) (.protocol "invalid_identifier")

/-- `validateSignalDecimal`. -/
def validateSignalDecimal (value name : String) : Except SignalError Decimal :=
  if h : areDecimalDigits value.toList = true then .ok ⟨value, h⟩
  else .error (.validation s!"invalid_signal_{name}")

@[simp] theorem validateSignalDecimal_text (d : Decimal) (name : String) :
    validateSignalDecimal d.text name = .ok d := by
  unfold validateSignalDecimal
  rw [dif_pos d.isDecimal]

/-- `validateSignalDecimal` of a decimal that may be absent. -/
def validateSignalDecimal? (value : Option String) (name : String) :
    Except SignalError (Option Decimal) :=
  match value with
  | none => .ok none
  | some value => return some (← validateSignalDecimal value name)

/-- `compareSignalTicks`; the texts of decimals always pass its check. -/
def compareSignalTicks (left right : Decimal) : Ordering :=
  if left.text.length ≠ right.text.length then
    if left.text.length < right.text.length then .lt else .gt
  else if left = right then .eq
  else if left.text < right.text then .lt
  else .gt

theorem compareSignalTicks_eq (left right : Decimal) :
    compareSignalTicks left right = compare left.value right.value :=
  compareScheduleDecimals_eq left right

def validateSignalTimestamp (value : String) : Except SignalError Unit :=
  demand (isCanonicalTimestamp value) (.validation "invalid_signal_timestamp")

/-- `validateSignalCursor`. -/
def validateSignalCursor (value : Option Int) : Except SignalError Unit :=
  demand (value.all (0 ≤ ·)) (.validation "invalid_signal_cursor")

/-- `validateSignalPageLimit`. -/
def validateSignalPageLimit (value maximum : Nat) (code : String) : Except SignalError Unit :=
  demand (value ≤ maxSafeInteger && 1 ≤ value && value ≤ maximum) (.validation code)

/-- `normalizeIdentifierSet`; in the sorted list a repeated one follows its copy. -/
def normalizeIdentifierSet (values : List String) (maximum : Nat) (code : String) :
    Except SignalError (List String) := do
  demand (values.length ≤ maximum) (.validation code)
  demand (values.all isOpaqueIdentifier) (.protocol "invalid_identifier")
  demand values.Nodup (.validation "duplicate_signal_identifier")
  return values.insertionSort textLe

/-- The fields of `LIMIT_NAMES`, each a positive integer. -/
def SignalLimits.named (limits : SignalLimits) : List (String × Nat) :=
  [("maxPayloadBytes", limits.maxPayloadBytes),
    ("maxSubjectsPerSignal", limits.maxSubjectsPerSignal),
    ("maxCausesPerSignal", limits.maxCausesPerSignal),
    ("maxSignalFilterKinds", limits.maxSignalFilterKinds),
    ("maxWaitKinds", limits.maxWaitKinds), ("maxWaitSubjects", limits.maxWaitSubjects),
    ("maxWaitMatchesPerSignal", limits.maxWaitMatchesPerSignal),
    ("maxSignalPageSize", limits.maxSignalPageSize),
    ("maxWaitPageSize", limits.maxWaitPageSize),
    ("maxExpireBatchSize", limits.maxExpireBatchSize),
    ("maxPurgeBatchSize", limits.maxPurgeBatchSize)]

/-- `validateSignalLimits`. -/
def validateSignalLimits (limits : SignalLimits) : Except SignalError Unit :=
  limits.named.forM fun entry =>
    demand (1 ≤ entry.2 && entry.2 < maxSafeInteger)
      (.validation s!"invalid_signal_limit:{entry.1}")

/-! ## Requests -/

/-- `normalizeSignalPartition`. -/
def normalizeSignalPartition (partition : SignalPartition) :
    Except SignalError SignalPartition := do
  assertSignalIdentifier partition.ownerId
  assertSignalIdentifier partition.timelineId
  let _ ← validateSignalDecimal partition.generation "generation"
  assertSignalIdentifier? partition.sessionId
  assertSignalIdentifier? partition.actorId
  return partition

/-- `normalizeSignalPartition` of a request that names no session and no actor. -/
def normalizeSignalGeneration (partition : SignalGeneration) :
    Except SignalError SignalGeneration := do
  let normalized ← normalizeSignalPartition { partition with sessionId := none, actorId := none }
  return normalized.toScheduleGeneration

/-- `normalizeSignalGameTime`. -/
def normalizeSignalGameTime (gameTime : GameTime String) (partition : SignalPartition) :
    Except SignalError (GameTime Decimal) := do
  demand (isGameTime gameTime) (.protocol "invalid_game_time")
  demand (gameTime.timelineId = partition.timelineId && gameTime.generation = partition.generation)
    (.validation "signal_time_partition_mismatch")
  let tick ← validateSignalDecimal gameTime.tick "tick"
  return { gameTime with tick := tick }

/-- `normalizeGameSignal`. -/
def normalizeGameSignal (input : GameSignalDraft String) (limits : SignalLimits) :
    Except SignalError (GameSignalDraft Decimal) := do
  assertSignalIdentifier input.signalId
  let partition ← normalizeSignalPartition input.partition
  assertSignalIdentifier input.kind
  demand (jsonBytes input.payload ≤ limits.maxPayloadBytes)
    (.validation "signal_payload_too_large")
  let gameTime ← normalizeSignalGameTime input.gameTime partition
  let subjectIds ← normalizeIdentifierSet input.subjectIds limits.maxSubjectsPerSignal
    "too_many_signal_subjects"
  let causeIds ← normalizeIdentifierSet input.causeIds limits.maxCausesPerSignal
    "too_many_signal_causes"
  validateSignalTimestamp input.recordedAt
  return {
    signalId := input.signalId
    partition := partition
    kind := input.kind
    payload := input.payload
    gameTime := gameTime
    subjectIds := subjectIds
    causeIds := causeIds
    recordedAt := input.recordedAt }

/-- The subjects of a selector, if it names any. -/
def normalizeWaitSubjects (subjects : Option (List String)) (maximum : Nat) :
    Except SignalError (Option (List String)) :=
  match subjects with
  | none => .ok none
  | some subjects =>
    return some (← normalizeIdentifierSet subjects maximum "too_many_signal_wait_subjects")

/-- Whether the ticks of a selector leave room for a signal. -/
def isWaitTickRange : Option Decimal → Option Decimal → Bool
  | some after, some through => compareSignalTicks after through = .lt
  | _, _ => true

/-- `normalizeSignalWaitSelector`. -/
def normalizeSignalWaitSelector (selector : SignalWaitSelector String) (limits : SignalLimits) :
    Except SignalError (SignalWaitSelector Decimal) := do
  let kinds ← normalizeIdentifierSet selector.kinds limits.maxWaitKinds
    "too_many_signal_wait_kinds"
  demand (kinds ≠ []) (.validation "empty_signal_wait_kinds")
  let subjects ← normalizeWaitSubjects selector.subjectIdsAny limits.maxWaitSubjects
  demand (subjects ≠ some []) (.validation "empty_signal_wait_subjects")
  validateSignalCursor selector.afterSignalKey
  let afterTick ← validateSignalDecimal? selector.afterTickExclusive "after_tick"
  let throughTick ← validateSignalDecimal? selector.throughTickInclusive "through_tick"
  demand (isWaitTickRange afterTick throughTick) (.validation "invalid_signal_wait_tick_range")
  return {
    kinds := kinds
    subjectIdsAny := subjects
    afterSignalKey := selector.afterSignalKey
    afterTickExclusive := afterTick
    throughTickInclusive := throughTick }

/-- `normalizeSignalWaitTarget`. -/
def normalizeSignalWaitTarget : SignalWaitTarget → Except SignalError SignalWaitTarget
  | .goalStep goalId stepId => do
    assertSignalIdentifier goalId
    assertSignalIdentifier stepId
    return .goalStep goalId stepId
  | .correlation correlationId => do
    assertSignalIdentifier correlationId
    return .correlation correlationId

/-- `normalizeSignalWait`. -/
def normalizeSignalWait (input : SignalWaitDraft String) (limits : SignalLimits) :
    Except SignalError (SignalWaitDraft Decimal) := do
  assertSignalIdentifier input.waitId
  let partition ← normalizeSignalPartition input.partition
  let selector ← normalizeSignalWaitSelector input.selector limits
  let target ← normalizeSignalWaitTarget input.target
  validateSignalTimestamp input.recordedAt
  return {
    waitId := input.waitId
    partition := partition
    selector := selector
    target := target
    recordedAt := input.recordedAt }

/-- `validateSignalWaitKey`. -/
def validateSignalWaitKey (key : SignalWaitKey) : Except SignalError SignalWaitKey := do
  assertSignalIdentifier key.ownerId
  assertSignalIdentifier key.timelineId
  let _ ← validateSignalDecimal key.generation "generation"
  assertSignalIdentifier key.waitId
  return key

/-! ## Fingerprints -/

def GameSignalDraft.toJson (signal : GameSignalDraft Decimal) : JsonValue :=
  .record [("signalId", some (.text signal.signalId)), ("partition", some signal.partition.toJson),
    ("kind", some (.text signal.kind)), ("payload", some signal.payload),
    ("gameTime", some signal.gameTime.toJson),
    ("subjectIds", some (.array (signal.subjectIds.map .text))),
    ("causeIds", some (.array (signal.causeIds.map .text))),
    ("recordedAt", some (.text signal.recordedAt))]

def SignalWaitSelector.toJson (selector : SignalWaitSelector Decimal) : JsonValue :=
  .record [("kinds", some (.array (selector.kinds.map .text))),
    ("subjectIdsAny", selector.subjectIdsAny.map fun subjects => .array (subjects.map .text)),
    ("afterSignalKey", selector.afterSignalKey.map fun key => .text (toString key)),
    ("afterTickExclusive", selector.afterTickExclusive.map fun tick => .text tick.text),
    ("throughTickInclusive", selector.throughTickInclusive.map fun tick => .text tick.text)]

def SignalWaitTarget.toJson : SignalWaitTarget → JsonValue
  | .goalStep goalId stepId =>
    .record [("kind", some (.text "goal_step")), ("goalId", some (.text goalId)),
      ("stepId", some (.text stepId))]
  | .correlation correlationId =>
    .record [("kind", some (.text "correlation")), ("correlationId", some (.text correlationId))]

def SignalWaitDraft.toJson (wait : SignalWaitDraft Decimal) : JsonValue :=
  .record [("waitId", some (.text wait.waitId)), ("partition", some wait.partition.toJson),
    ("selector", some wait.selector.toJson), ("target", some wait.target.toJson),
    ("recordedAt", some (.text wait.recordedAt))]

/-- `signalFingerprint`. -/
def signalFingerprint (signal : GameSignalDraft Decimal) : List UInt16 :=
  canonicalizeJsonValue signal.toJson

/-- `signalWaitFingerprint`. -/
def signalWaitFingerprint (wait : SignalWaitDraft Decimal) : List UInt16 :=
  canonicalizeJsonValue wait.toJson

/-! ## Matching -/

/-- `sameSignalGeneration`. -/
def sameSignalGeneration (left right : SignalGeneration) : Bool :=
  left.ownerId = right.ownerId && left.timelineId = right.timelineId &&
    left.generation = right.generation

/-- `signalWaitMatches`. -/
def signalWaitMatches (wait : SignalWaitDraft Decimal) (signal : GameSignalRecord) : Bool :=
  sameSignalGeneration wait.partition.toScheduleGeneration
      signal.partition.toScheduleGeneration &&
    (wait.partition.sessionId = none || wait.partition.sessionId = signal.partition.sessionId) &&
    (wait.partition.actorId = none || wait.partition.actorId = signal.partition.actorId) &&
    wait.selector.kinds.contains signal.kind &&
    (wait.selector.subjectIdsAny.all fun subjects =>
      subjects.any fun subjectId => signal.subjectIds.contains subjectId) &&
    (wait.selector.afterSignalKey.all fun key => key < (signal.signalKey : Int)) &&
    (wait.selector.afterTickExclusive.all fun tick =>
      compareSignalTicks signal.gameTime.tick tick = .gt) &&
    (wait.selector.throughTickInclusive.all fun tick =>
      compareSignalTicks signal.gameTime.tick tick ≠ .gt)

/-- `laterSignalTimestamp`. -/
def laterSignalTimestamp (left right : String) : Except SignalError String := do
  validateSignalTimestamp left
  validateSignalTimestamp right
  return if left < right then right else left

/-! ## What the checks make sure of -/

@[simp] theorem validateSignalTimestamp_eq_ok {value : String} {u : Unit} :
    validateSignalTimestamp value = .ok u ↔ isCanonicalTimestamp value = true := by
  simp [validateSignalTimestamp]

theorem laterSignalTimestamp_eq_ok {left right later : String} :
    laterSignalTimestamp left right = .ok later ↔
      isCanonicalTimestamp left = true ∧ isCanonicalTimestamp right = true ∧
        later = if left < right then right else left := by
  simp only [laterSignalTimestamp, check_eq_ok, validateSignalTimestamp_eq_ok, return_eq_ok]

theorem normalizeGameSignal_recordedAt {input : GameSignalDraft String} {limits : SignalLimits}
    {draft : GameSignalDraft Decimal} (h : normalizeGameSignal input limits = .ok draft) :
    isCanonicalTimestamp draft.recordedAt = true := by
  simp only [normalizeGameSignal, bind_eq_ok] at h
  obtain ⟨_, _, _, _, _, _, _, _, _, _, _, _, _, _, _, htimestamp, h⟩ := h
  obtain rfl := return_eq_ok.1 h
  exact validateSignalTimestamp_eq_ok.1 htimestamp

theorem normalizeSignalWait_recordedAt {input : SignalWaitDraft String} {limits : SignalLimits}
    {draft : SignalWaitDraft Decimal} (h : normalizeSignalWait input limits = .ok draft) :
    isCanonicalTimestamp draft.recordedAt = true := by
  simp only [normalizeSignalWait, bind_eq_ok] at h
  obtain ⟨_, _, _, _, _, _, _, _, _, htimestamp, h⟩ := h
  obtain rfl := return_eq_ok.1 h
  exact validateSignalTimestamp_eq_ok.1 htimestamp

end OpenGameAgent
