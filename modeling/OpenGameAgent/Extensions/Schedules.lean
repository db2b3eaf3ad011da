import Mathlib.Data.List.Sort
import OpenGameAgent.Library.Decimal
import OpenGameAgent.Library.Run
import OpenGameAgent.Protocol.Json
import OpenGameAgent.Protocol.Timestamp

/-!
# Game schedules

The types of `packages/extensions/src/schedule-types.ts`, the errors of
`schedule-errors.ts`, the checks of `schedule-validation.ts` and the work authority
lanes of `packages/protocol/src/run-authority.ts`.

A draft comes with its numbers as texts, `GameScheduleDraft String`; the checks give it
back with canonical decimals, `GameScheduleDraft Decimal`, and from there on no number
has to be looked at again.

* `compareScheduleDecimals_eq` — the comparison by length and text is the comparison of
  the numbers.
* `addScheduleDecimals_eq_ok_iff`, `incrementScheduleDecimal_eq_ok_iff` — the arithmetic is
  exact and fails when the result has too many digits.
-/

namespace OpenGameAgent

/-! ## Partitions -/

/-- `Pick<SchedulePartition, "ownerId" | "timelineId" | "generation">`. -/
structure ScheduleGeneration where
  ownerId : String
  timelineId : String
  generation : String
  deriving DecidableEq, Repr

structure SchedulePartition extends ScheduleGeneration where
  sessionId : Option String
  actorId : Option String
  deriving DecidableEq, Repr

structure WorkAuthorityLane extends ScheduleGeneration where
  sessionId : String
  actorId : String
  deriving DecidableEq, Repr

/-- A lane read as a partition. -/
def WorkAuthorityLane.partition (lane : WorkAuthorityLane) : SchedulePartition :=
  { lane with sessionId := some lane.sessionId, actorId := some lane.actorId }

structure WorkAuthorityRetirementRequest where
  retirementId : String
  partition : WorkAuthorityLane
  recordedAt : String
  deriving DecidableEq, Repr

inductive RetirementPhase where
  | fenced | finalized
  deriving DecidableEq, Repr

structure ScheduleAuthorityRetirementRecord extends WorkAuthorityRetirementRequest where
  phase : RetirementPhase
  cancelledScheduleCount : Nat
  cancelledOccurrenceCount : Nat
  deriving DecidableEq, Repr

/-- `sameScheduleGeneration`. -/
def sameScheduleGeneration (left right : ScheduleGeneration) : Bool :=
  left.ownerId = right.ownerId && left.timelineId = right.timelineId &&
    left.generation = right.generation

@[simp] theorem sameScheduleGeneration_iff {left right : ScheduleGeneration} :
    sameScheduleGeneration left right = true ↔ left = right := by
  cases left
  cases right
  simp [sameScheduleGeneration, and_assoc]

/-- `sameScheduleAuthorityLane`. -/
def sameScheduleAuthorityLane (left : SchedulePartition) (right : WorkAuthorityLane) : Bool :=
  sameScheduleGeneration left.toScheduleGeneration right.toScheduleGeneration &&
    left.sessionId = some right.sessionId && left.actorId = some right.actorId

@[simp] theorem sameScheduleAuthorityLane_iff {left : SchedulePartition}
    {right : WorkAuthorityLane} :
    sameScheduleAuthorityLane left right = true ↔ left = right.partition := by
  cases left
  cases right
  simp [sameScheduleAuthorityLane, WorkAuthorityLane.partition, and_assoc]

/-! ## Schedules -/

/-- `GameTime`, whose tick is text before it is checked. -/
structure GameTime (δ : Type) where
  timelineId : String
  generation : String
  tick : δ
  deriving DecidableEq, Repr

structure GameScheduleDraft (δ : Type) where
  scheduleId : String
  partition : SchedulePartition
  kind : String
  payload : JsonValue
  dueTime : GameTime δ
  intervalTicks : Option δ
  maximumOccurrences : Option δ
  subjectIds : List String
  causeIds : List String
  recordedAt : String
  deriving DecidableEq

inductive GameScheduleStatus where
  | active | completed | cancelled
  deriving DecidableEq, Repr

structure GameScheduleRecord extends GameScheduleDraft Decimal where
  scheduleKey : Nat
  status : GameScheduleStatus
  revision : Decimal
  occurrences : Decimal
  nextDueTick : Option Decimal
  createdAt : String
  updatedAt : String
  deriving DecidableEq

structure GameScheduleKey extends ScheduleGeneration where
  scheduleId : String
  deriving DecidableEq, Repr

structure ScheduleAdvanceDraft (δ : Type) where
  advanceId : String
  partition : ScheduleGeneration
  fromExclusive : GameTime δ
  toInclusive : GameTime δ
  recordedAt : String
  deriving DecidableEq, Repr

structure ScheduleAdvanceRecord extends ScheduleAdvanceDraft Decimal where
  advanceKey : Nat
  deriving DecidableEq, Repr

inductive ScheduledOccurrenceStatus where
  | pending | completed | cancelled
  deriving DecidableEq, Repr

structure ScheduledOccurrenceRecord where
  occurrenceKey : Nat
  signalId : String
  scheduleKey : Nat
  scheduleId : String
  ordinal : Decimal
  advanceId : String
  partition : SchedulePartition
  kind : String
  payload : JsonValue
  dueTime : GameTime Decimal
  subjectIds : List String
  causeIds : List String
  status : ScheduledOccurrenceStatus
  revision : Decimal
  attempt : Decimal
  createdAt : String
  updatedAt : String
  completedAt : Option String
  cancelledAt : Option String
  deriving DecidableEq

structure ScheduledOccurrenceSequenceKey extends ScheduleGeneration where
  occurrenceKey : Nat
  deriving DecidableEq, Repr

structure ScheduledOccurrenceDelivery where
  occurrence : ScheduledOccurrenceRecord
  leaseToken : String
  leaseOwnerId : String
  leaseExpiresAt : String
  deriving DecidableEq

structure ScheduleAdvanceResult where
  advance : ScheduleAdvanceRecord
  occurrences : List ScheduledOccurrenceRecord

structure ScheduleLimits where
  maxIdentifierBytes : Nat
  maxPayloadBytes : Nat
  maxSubjectsPerSchedule : Nat
  maxCausesPerSchedule : Nat
  maxTickDigits : Nat
  maxCounterDigits : Nat
  maxActiveSchedulesPerTimelineGeneration : Nat
  maxOccurrencesPerAdvance : Nat
  maxPendingOccurrencesPerTimelineGeneration : Nat
  maxSchedulePageSize : Nat
  maxOccurrencePageSize : Nat
  maxClaimBatchSize : Nat
  maxPurgeBatchSize : Nat

structure ScheduleOccurrenceClaimRequest extends SchedulePartition where
  leaseOwnerId : String
  operationalNow : String
  leaseExpiresAt : String
  limit : Nat

/-! ## Errors -/

/-- What a schedule store throws; `host` is whatever an identifier source of the host throws. -/
inductive ScheduleError where
  | validation (code : String)
  | conflict
  | notFound
  | revisionConflict
  | terminal
  | capacity (code : String)
  | advanceConflict
  | clockConflict
  | missedOccurrence
  | advanceOverflow
  | occurrenceNotFound
  | occurrenceLeaseConflict
  | workAuthorityRetired (lane : WorkAuthorityLane)
  | workAuthorityRetirementConflict
  | invalidTimestamp
  | type (message : String)
  | host (message : String)
  deriving DecidableEq, Repr

/-- `if (!condition) throw error`. -/
def require (condition : Bool) (error : ScheduleError) : Except ScheduleError Unit :=
  if condition then .ok () else .error error

@[simp] theorem require_eq_ok {condition : Bool} {error : ScheduleError} {u : Unit} :
    require condition error = .ok u ↔ condition = true := by
  unfold require
  split <;> simp_all

/-! ## Decimals -/

/-- `compareScheduleDecimals`; the texts of decimals always pass its check. -/
def compareScheduleDecimals (left right : Decimal) : Ordering :=
  if left.text.length ≠ right.text.length then
    if left.text.length < right.text.length then .lt else .gt
  else if left = right then .eq
  else if left.text < right.text then .lt
  else .gt

theorem compareScheduleDecimals_eq (left right : Decimal) :
    compareScheduleDecimals left right = compare left.value right.value := by
  unfold compareScheduleDecimals
  by_cases hlen : left.text.length = right.text.length
  · rw [if_neg (by simpa using hlen)]
    by_cases heq : left = right
    · rw [if_pos heq, heq, Nat.compare_eq_eq.2 rfl]
    · rw [if_neg heq]
      by_cases hlt : left.text < right.text
      · rw [if_pos hlt, Nat.compare_eq_lt.2 ((Decimal.value_lt_iff hlen).2 hlt)]
      · rw [if_neg hlt, Nat.compare_eq_gt.2]
        have hle : ¬ left.value < right.value := fun h => hlt ((Decimal.value_lt_iff hlen).1 h)
        have hne : left.value ≠ right.value := fun h => heq (Decimal.value_injective h)
        omega
  · rw [if_pos hlen]
    by_cases hlt : left.text.length < right.text.length
    · rw [if_pos hlt, Nat.compare_eq_lt.2 (Decimal.lt_of_length_lt hlt)]
    · rw [if_neg hlt, Nat.compare_eq_gt.2 (Decimal.lt_of_length_lt (by omega))]

/-- `compareScheduleDecimals(left, right) <= 0`. -/
def scheduleDecimalLe (left right : Decimal) : Bool := compareScheduleDecimals left right ≠ .gt

@[simp] theorem scheduleDecimalLe_iff {left right : Decimal} :
    scheduleDecimalLe left right = true ↔ left.value ≤ right.value := by
  rw [scheduleDecimalLe, compareScheduleDecimals_eq, decide_eq_true_eq, ne_eq,
    Nat.compare_eq_gt, not_lt]

/-- `validateScheduleDecimal`. -/
def validateScheduleDecimal (value name : String) (maximumDigits : Nat) :
    Except ScheduleError Decimal :=
  if h : areDecimalDigits value.toList = true ∧ value.length ≤ maximumDigits then
    .ok ⟨value, h.1⟩
  else .error (.validation s!"invalid_schedule_{name}")

/-- `validatePositiveScheduleDecimal`. -/
def validatePositiveScheduleDecimal (value name : String) (maximumDigits : Nat) :
    Except ScheduleError Decimal := do
  let decimal ← validateScheduleDecimal value name maximumDigits
  if value = "0" then .error (.validation s!"invalid_schedule_{name}") else return decimal

/-- `value.toString()`, if it has no more than the digits allowed. -/
def scheduleDecimal (value maximumDigits : Nat) (code : String) : Except ScheduleError Decimal :=
  if maximumDigits < (Decimal.ofNat value).text.length then .error (.validation code)
  else .ok (Decimal.ofNat value)

/-- `addScheduleDecimals`. -/
def addScheduleDecimals (left right : Decimal) (maximumDigits : Nat) :
    Except ScheduleError Decimal := do
  let _ ← validateScheduleDecimal left.text "tick" maximumDigits
  let _ ← validateScheduleDecimal right.text "interval_ticks" maximumDigits
  scheduleDecimal (left.value + right.value) maximumDigits "schedule_tick_overflow"

/-- `incrementScheduleDecimal`. -/
def incrementScheduleDecimal (value : Decimal) (maximumDigits : Nat) (name : String) :
    Except ScheduleError Decimal := do
  let _ ← validateScheduleDecimal value.text name maximumDigits
  scheduleDecimal (value.value + 1) maximumDigits s!"schedule_{name}_overflow"

theorem validateScheduleDecimal_eq_ok_iff {value name : String} {maximumDigits : Nat}
    {d : Decimal} :
    validateScheduleDecimal value name maximumDigits = .ok d ↔
      d.text = value ∧ value.length ≤ maximumDigits := by
  unfold validateScheduleDecimal
  split
  · rename_i h
    constructor
    · rintro ⟨⟩
      exact ⟨rfl, h.2⟩
    · rintro ⟨rfl, -⟩
      rfl
  · rename_i h
    constructor
    · rintro ⟨⟩
    · rintro ⟨rfl, hlen⟩
      exact absurd ⟨d.isDecimal, hlen⟩ h

theorem scheduleDecimal_eq_ok_iff {value maximumDigits : Nat} {code : String} {d : Decimal}
    (hpos : 0 < maximumDigits) :
    scheduleDecimal value maximumDigits code = .ok d ↔
      d.value = value ∧ value < 10 ^ maximumDigits := by
  have hlen := (Decimal.ofNat value).length_le_iff hpos
  rw [Decimal.value_ofNat] at hlen
  unfold scheduleDecimal
  by_cases h : maximumDigits < (Decimal.ofNat value).text.length
  · rw [if_pos h]
    have hle : ¬ value < 10 ^ maximumDigits := fun hlt => absurd (hlen.2 hlt) (not_le.2 h)
    simp [hle]
  · rw [if_neg h, Except.ok.injEq]
    constructor
    · rintro rfl
      exact ⟨Decimal.value_ofNat _, hlen.1 (not_lt.1 h)⟩
    · rintro ⟨hvalue, -⟩
      rw [← hvalue, Decimal.ofNat_value]

/-- `addScheduleDecimals` adds exactly, unless the sum has too many digits. -/
theorem addScheduleDecimals_eq_ok_iff {left right d : Decimal} {maximumDigits : Nat}
    (hpos : 0 < maximumDigits) :
    addScheduleDecimals left right maximumDigits = .ok d ↔
      d.value = left.value + right.value ∧ left.value + right.value < 10 ^ maximumDigits := by
  simp only [addScheduleDecimals, bind_eq_ok, validateScheduleDecimal_eq_ok_iff,
    scheduleDecimal_eq_ok_iff hpos, Decimal.length_le_iff _ hpos]
  constructor
  · rintro ⟨_, _, _, _, h⟩
    exact h
  · rintro ⟨hvalue, hlt⟩
    exact ⟨left, ⟨rfl, by omega⟩, right, ⟨rfl, by omega⟩, hvalue, hlt⟩

/-- `incrementScheduleDecimal` adds one, unless the sum has too many digits. -/
theorem incrementScheduleDecimal_eq_ok_iff {value d : Decimal} {maximumDigits : Nat}
    {name : String} (hpos : 0 < maximumDigits) :
    incrementScheduleDecimal value maximumDigits name = .ok d ↔
      d.value = value.value + 1 ∧ value.value + 1 < 10 ^ maximumDigits := by
  simp only [incrementScheduleDecimal, bind_eq_ok, validateScheduleDecimal_eq_ok_iff,
    scheduleDecimal_eq_ok_iff hpos, Decimal.length_le_iff _ hpos]
  constructor
  · rintro ⟨_, _, h⟩
    exact h
  · rintro ⟨hvalue, hlt⟩
    exact ⟨value, ⟨rfl, by omega⟩, hvalue, hlt⟩

end OpenGameAgent
