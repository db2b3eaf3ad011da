import OpenGameAgent.Extensions.ScheduleValidation
import OpenGameAgent.Protocol.CanonicalEvents
import OpenGameAgent.Protocol.JsonMembers

/-!
# Run authorities

The authority keys and the close requests of `packages/protocol/src/run-authority.ts`.

A host admits runs under an authority, a scope with a generation, and closes that
authority for good.  A store keeps the request that closed an authority as canonical
JSON and compares later requests with it as texts.

* `CloseRunAuthorityRequest.serialize_inj` — the texts are equal only for one request.
-/

namespace OpenGameAgent

/-- `RunAuthorityKey`: an authority of a stream. -/
structure RunAuthorityKey where
  sessionId : String
  actorId : String
  scope : String
  generation : Nat
  deriving DecidableEq, Repr

/-- The runs of a stream are told apart by their identifiers. -/
structure RunKey where
  sessionId : String
  actorId : String
  runId : String
  deriving DecidableEq, Repr

def RunCoordinate.runKey (coordinate : RunCoordinate) : RunKey :=
  ⟨coordinate.sessionId, coordinate.actorId, coordinate.runId⟩

/-- `{ ...coordinate, ...admission }` as an authority key. -/
def RunKey.under (run : RunKey) (admission : RunAdmissionAuthority) : RunAuthorityKey :=
  ⟨run.sessionId, run.actorId, admission.scope, admission.generation⟩

/-- `RunAuthorityGoalRetirement`; its generations and its revision are texts until they are
checked. -/
structure RunAuthorityGoalRetirement where
  retirementId : String
  stateRevision : String
  partition : SchedulePartition
  gameTime : GameTime String
  recordedAt : String
  deriving DecidableEq, Repr

structure CloseRunAuthorityRequest extends RunAuthorityKey where
  operationId : String
  goalRetirement : Option RunAuthorityGoalRetirement
  workRetirement : Option WorkAuthorityRetirementRequest
  deriving DecidableEq, Repr

abbrev CloseRunAuthorityRequest.key (request : CloseRunAuthorityRequest) : RunAuthorityKey :=
  request.toRunAuthorityKey

/-- `RunAuthorityWorkRetirementResult` of a fenced retirement. -/
structure RunAuthorityWorkRetirementResult where
  cancelledScheduleCount : Nat
  cancelledOccurrenceCount : Nat
  cancelledMessageCount : Nat
  deriving DecidableEq, Repr

structure RunAuthorityClosure extends CloseRunAuthorityRequest where
  closedAt : String
  workRetirementResult : Option RunAuthorityWorkRetirementResult
  deriving DecidableEq, Repr

/-! ## Checks -/

/-- `captureRunAuthorityKey`. -/
def captureRunAuthorityKey (key : RunAuthorityKey) : Except EventError Unit :=
  if ¬ isOpaqueIdentifier key.scope then .error (.type "Invalid run admission authority.")
  else if ¬ (isOpaqueIdentifier key.sessionId && isOpaqueIdentifier key.actorId) then
    .error (.type "Invalid run authority key.")
  else .ok ()

/-- The Goal retirement of a close request. -/
def captureGoalRetirement (retirement : RunAuthorityGoalRetirement) : Except EventError Unit :=
  if ¬ (isOpaqueIdentifier retirement.retirementId &&
      areDecimalDigits retirement.stateRevision.toList &&
      isOpaqueIdentifier retirement.partition.ownerId &&
      isOpaqueIdentifier retirement.partition.timelineId &&
      areDecimalDigits retirement.partition.generation.toList &&
      retirement.partition.sessionId.all isOpaqueIdentifier &&
      retirement.partition.actorId.all isOpaqueIdentifier &&
      isOpaqueIdentifier retirement.gameTime.timelineId &&
      areDecimalDigits retirement.gameTime.generation.toList &&
      areDecimalDigits retirement.gameTime.tick.toList &&
      hasTimestampPattern retirement.recordedAt) then
    .error (.type "Invalid Goal retirement.")
  else if ¬ isCanonicalTimestamp retirement.recordedAt then .error .invalidTimestamp
  else if retirement.partition.timelineId ≠ retirement.gameTime.timelineId ∨
      retirement.partition.generation ≠ retirement.gameTime.generation then
    .error (.type "Goal retirement time does not match its partition.")
  else .ok ()

/-- The work retirement of a close request: it retires the lane of the closed stream. -/
def captureWorkRetirement (key : RunAuthorityKey) (retirement : WorkAuthorityRetirementRequest) :
    Except EventError Unit :=
  match captureWorkAuthorityRetirementRequest retirement with
  | .error .invalidTimestamp => .error .invalidTimestamp
  | .error (.type message) => .error (.type message)
  | .error _ => .error (.type "Invalid work authority retirement.")
  | .ok _ =>
    if retirement.partition.sessionId ≠ key.sessionId ∨
        retirement.partition.actorId ≠ key.actorId then
      .error (.type "Work retirement must match the closed run stream.")
    else .ok ()

/-- `captureCloseRunAuthorityRequest`. -/
def captureCloseRunAuthorityRequest (request : CloseRunAuthorityRequest) :
    Except EventError Unit := do
  captureRunAuthorityKey request.key
  match request.goalRetirement with
  | none => pure ()
  | some retirement => captureGoalRetirement retirement
  match request.workRetirement with
  | none => pure ()
  | some retirement => captureWorkRetirement request.key retirement
  if isOpaqueIdentifier request.operationId then return ()
  else .error (.type "Invalid run authority close request.")

/-! ## Canonical text -/

def RunAuthorityGoalRetirement.gameTimeJson (r : RunAuthorityGoalRetirement) : JsonValue :=
  .record [("timelineId", some (.text r.gameTime.timelineId)),
    ("generation", some (.text r.gameTime.generation)), ("tick", some (.text r.gameTime.tick))]

def RunAuthorityGoalRetirement.toJson (r : RunAuthorityGoalRetirement) : JsonValue :=
  .record [("retirementId", some (.text r.retirementId)),
    ("stateRevision", some (.text r.stateRevision)), ("partition", some r.partition.toJson),
    ("gameTime", some r.gameTimeJson), ("recordedAt", some (.text r.recordedAt))]

def WorkAuthorityRetirementRequest.toJson (r : WorkAuthorityRetirementRequest) : JsonValue :=
  .record [("retirementId", some (.text r.retirementId)),
    ("partition", some r.partition.partition.toJson), ("recordedAt", some (.text r.recordedAt))]

def CloseRunAuthorityRequest.toJson (r : CloseRunAuthorityRequest) : JsonValue :=
  .record [("sessionId", some (.text r.sessionId)), ("actorId", some (.text r.actorId)),
    ("scope", some (.text r.scope)), ("generation", some (.text (toString r.generation))),
    ("operationId", some (.text r.operationId)),
    ("goalRetirement", r.goalRetirement.map RunAuthorityGoalRetirement.toJson),
    ("workRetirement", r.workRetirement.map WorkAuthorityRetirementRequest.toJson)]

/-- `canonicalizeJsonValue(request)`. -/
def CloseRunAuthorityRequest.serialize (request : CloseRunAuthorityRequest) : List UInt16 :=
  canonicalizeJsonValue request.toJson

section Identity

open JsonValue

variable {N : NumberTexts}

theorem SchedulePartition.wellFormed (p : SchedulePartition) : p.toJson.WellFormed N := by
  refine wellFormed_record (by simp) ?_
  simp

theorem RunAuthorityGoalRetirement.wellFormed_gameTime (r : RunAuthorityGoalRetirement) :
    r.gameTimeJson.WellFormed N := by
  refine wellFormed_record (by simp) ?_
  simp

theorem RunAuthorityGoalRetirement.wellFormed (r : RunAuthorityGoalRetirement) :
    r.toJson.WellFormed N := by
  refine wellFormed_record (by simp) ?_
  simp [r.partition.wellFormed, r.wellFormed_gameTime]

theorem WorkAuthorityRetirementRequest.wellFormed (r : WorkAuthorityRetirementRequest) :
    r.toJson.WellFormed N := by
  refine wellFormed_record (by simp) ?_
  simp [SchedulePartition.wellFormed]

theorem CloseRunAuthorityRequest.wellFormed (r : CloseRunAuthorityRequest) :
    r.toJson.WellFormed N := by
  refine wellFormed_record (by simp) ?_
  simp [RunAuthorityGoalRetirement.wellFormed, WorkAuthorityRetirementRequest.wellFormed]

/-- Records that are written alike are the same. -/
theorem SchedulePartition.toJson_inj {p q : SchedulePartition} (h : p.toJson.SameValue q.toJson) :
    p = q := by
  have hmember := h.member (p.wellFormed (N := oneDigit)) q.wellFormed
  have howner := hmember "ownerId"
  have htimeline := hmember "timelineId"
  have hgeneration := hmember "generation"
  have hsession := hmember "sessionId"
  have hactor := hmember "actorId"
  simp [SchedulePartition.toJson, member_record_cons] at howner htimeline hgeneration hsession hactor
  have hsession := rel_text hsession
  have hactor := rel_text hactor
  obtain ⟨⟨_, _, _⟩, _, _⟩ := p
  obtain ⟨⟨_, _, _⟩, _, _⟩ := q
  simp_all

theorem RunAuthorityGoalRetirement.toJson_inj {r s : RunAuthorityGoalRetirement}
    (h : r.toJson.SameValue s.toJson) : r = s := by
  have hmember := h.member (r.wellFormed (N := oneDigit)) s.wellFormed
  have hid := hmember "retirementId"
  have hrevision := hmember "stateRevision"
  have hpartition := hmember "partition"
  have htime := hmember "gameTime"
  have hrecorded := hmember "recordedAt"
  simp [RunAuthorityGoalRetirement.toJson] at hid hrevision hpartition htime hrecorded
  have hpartition := SchedulePartition.toJson_inj hpartition
  have hin := htime.member (r.wellFormed_gameTime (N := oneDigit)) s.wellFormed_gameTime
  have htimeline := hin "timelineId"
  have hgeneration := hin "generation"
  have htick := hin "tick"
  simp [RunAuthorityGoalRetirement.gameTimeJson] at htimeline hgeneration htick
  obtain ⟨_, _, _, ⟨_, _, _⟩, _⟩ := r
  obtain ⟨_, _, _, ⟨_, _, _⟩, _⟩ := s
  simp_all

theorem WorkAuthorityRetirementRequest.toJson_inj {r s : WorkAuthorityRetirementRequest}
    (h : r.toJson.SameValue s.toJson) : r = s := by
  have hmember := h.member (r.wellFormed (N := oneDigit)) s.wellFormed
  have hid := hmember "retirementId"
  have hpartition := hmember "partition"
  have hrecorded := hmember "recordedAt"
  simp [WorkAuthorityRetirementRequest.toJson] at hid hpartition hrecorded
  have hpartition := SchedulePartition.toJson_inj hpartition
  obtain ⟨_, ⟨⟨_, _, _⟩, _, _⟩, _⟩ := r
  obtain ⟨_, ⟨⟨_, _, _⟩, _, _⟩, _⟩ := s
  simp_all [WorkAuthorityLane.partition]

/-- Optional members that are written alike are the same. -/
theorem rel_toJson {α : Type} {f : α → JsonValue} (hf : ∀ a b, (f a).SameValue (f b) → a = b)
    {a b : Option α} (h : Option.Rel SameValue (a.map f) (b.map f)) : a = b := by
  cases a <;> cases b
  · rfl
  · cases h
  · cases h
  · exact congrArg some (hf _ _ (rel_some.1 h))

theorem repr_eq_iff {m n : Nat} : m.repr = n.repr ↔ m = n := by
  refine ⟨fun h => ?_, fun h => h ▸ rfl⟩
  have hm := Decimal.value_ofNat m
  rw [show Decimal.ofNat m = Decimal.ofNat n from Decimal.text_ext h, Decimal.value_ofNat] at hm
  exact hm.symm

/-- The canonical text of a close request names the request. -/
theorem CloseRunAuthorityRequest.serialize_inj {r s : CloseRunAuthorityRequest}
    (h : r.serialize = s.serialize) : r = s := by
  have hr := r.wellFormed (N := oneDigit)
  have hs := s.wellFormed (N := oneDigit)
  have hmember := ((canonicalizeJsonValue_eq_iff hr hs).1 h).member hr hs
  have hsession := hmember "sessionId"
  have hactor := hmember "actorId"
  have hscope := hmember "scope"
  have hgeneration := hmember "generation"
  have hoperation := hmember "operationId"
  have hgoal := hmember "goalRetirement"
  have hwork := hmember "workRetirement"
  simp [CloseRunAuthorityRequest.toJson, member_record_cons] at hsession hactor hscope hoperation
  simp [CloseRunAuthorityRequest.toJson, member_record_cons, repr_eq_iff] at hgeneration hgoal hwork
  have hgoal := rel_toJson (fun a b => RunAuthorityGoalRetirement.toJson_inj) hgoal
  have hwork := rel_toJson (fun a b => WorkAuthorityRetirementRequest.toJson_inj) hwork
  obtain ⟨⟨_, _, _, _⟩, _, _, _⟩ := r
  obtain ⟨⟨_, _, _, _⟩, _, _, _⟩ := s
  simp_all

end Identity

end OpenGameAgent
