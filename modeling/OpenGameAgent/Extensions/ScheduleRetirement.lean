import OpenGameAgent.Extensions.ScheduleOccurrences

/-!
# Retiring a work authority

A retirement fences a lane in two phases.  The first one cancels the active schedules of
the lane and its pending occurrences without a lease; from then on nothing of the lane is
created, claimed, settled or abandoned.  The second one cancels what is still pending.

* `InMemoryScheduleStore.Fenced` — what holds of every recorded lane; `ScheduleStep.fenced`
  carries it along.
* `ScheduleStep.retired` — what one write does to a recorded lane.
* `retirement_fences` — the fence over whole runs.
-/

namespace OpenGameAgent

open InMemoryScheduleStore

variable {ctx : ScheduleContext} {s s' : InMemoryScheduleStore}

/-! ## Lanes -/

theorem lane?_eq_some_iff {p : SchedulePartition} {lane : WorkAuthorityLane} :
    p.lane? = some lane ↔ p = lane.partition := by
  obtain ⟨generation, sessionId, actorId⟩ := p
  obtain ⟨generation', sessionId', actorId'⟩ := lane
  cases sessionId <;> cases actorId <;>
    simp [SchedulePartition.lane?, WorkAuthorityLane.partition]

/-- Work in a lane is open until the lane is recorded. -/
theorem InMemoryScheduleStore.not_open (s : InMemoryScheduleStore) {p : SchedulePartition}
    {lane : WorkAuthorityLane} {record : ScheduleAuthorityRetirementRecord}
    (hp : p = lane.partition) (hrecord : s.retirements.get? lane = some record) :
    s.assertAuthorityOpen p ≠ .ok () := by
  have hhas : s.retirements.has lane = true := OrderedMap.has_iff.2 ⟨record, hrecord⟩
  rw [assertAuthorityOpen, lane?_eq_some_iff.2 hp]
  simp [hhas]

/-! ## What holds of every recorded lane -/

/-- What holds of a lane whose retirement is recorded. -/
structure InMemoryScheduleStore.LaneFenced (s : InMemoryScheduleStore) (lane : WorkAuthorityLane)
    (record : ScheduleAuthorityRetirementRecord) : Prop where
  ofLane : record.partition = lane
  identifier : s.retirementIds.get? record.retirementId = some lane
  schedules : ∀ k r, s.schedules.get? k = some r → r.partition = lane.partition →
    r.status ≠ .active
  occurrences : record.phase = .finalized → ∀ k o, s.occurrences.get? k = some o →
    o.partition = lane.partition → o.status ≠ .pending

def InMemoryScheduleStore.Fenced (s : InMemoryScheduleStore) : Prop :=
  ∀ lane record, s.retirements.get? lane = some record → s.LaneFenced lane record

theorem empty_fenced : InMemoryScheduleStore.empty.Fenced := nofun

/-- An occurrence of a recorded lane is as it was, or was cancelled. -/
def ScheduledOccurrenceRecord.KeptOrCancelled (o o' : ScheduledOccurrenceRecord) : Prop :=
  o' = o ∨ (o.status = .pending ∧ o.Cancelled o')

theorem ScheduledOccurrenceRecord.KeptOrCancelled.trans {o p q : ScheduledOccurrenceRecord}
    (hop : o.KeptOrCancelled p) (hpq : p.KeptOrCancelled q) : o.KeptOrCancelled q := by
  rcases hop with rfl | ⟨hpending, hcancelled⟩
  · exact hpq
  · rcases hpq with rfl | ⟨hstatus, -⟩
    · exact Or.inr ⟨hpending, hcancelled⟩
    · rw [hcancelled.status] at hstatus
      cases hstatus

/-- What becomes of a retirement record. -/
def ScheduleAuthorityRetirementRecord.KeptOrFinalized
    (record record' : ScheduleAuthorityRetirementRecord) : Prop :=
  record' = record ∨ (record.phase = .fenced ∧ record'.phase = .finalized ∧
    record'.toWorkAuthorityRetirementRequest = record.toWorkAuthorityRetirementRequest)

theorem ScheduleAuthorityRetirementRecord.KeptOrFinalized.trans
    {a b c : ScheduleAuthorityRetirementRecord} (hab : a.KeptOrFinalized b)
    (hbc : b.KeptOrFinalized c) : a.KeptOrFinalized c := by
  rcases hab with rfl | ⟨hfenced, hfinalized, hrequest⟩
  · exact hbc
  · rcases hbc with rfl | ⟨hfenced', -⟩
    · exact Or.inr ⟨hfenced, hfinalized, hrequest⟩
    · rw [hfinalized] at hfenced'
      cases hfenced'

/-- What one write leaves of a recorded lane. -/
structure LaneKept (s : InMemoryScheduleStore) (lane : WorkAuthorityLane)
    (record : ScheduleAuthorityRetirementRecord) (s' : InMemoryScheduleStore) : Prop where
  record : ∃ record', s'.retirements.get? lane = some record' ∧ record.KeptOrFinalized record'
  occurrences : ∀ k o', s'.occurrences.get? k = some o' → o'.partition = lane.partition →
    ∃ o, s.occurrences.get? k = some o ∧ o.partition = lane.partition ∧ o.KeptOrCancelled o'

/-! ## Writes that ask whether a lane is open -/

/-- A write that leaves recorded lanes alone: what it makes or touches is open work, or
belongs to an active schedule. -/
structure RespectsFences (s s' : InMemoryScheduleStore) : Prop where
  retirements : s'.retirements = s.retirements
  retirementIds : s'.retirementIds = s.retirementIds
  schedules : ∀ k r', s'.schedules.get? k = some r' → r'.status = .active →
    s.assertAuthorityOpen r'.partition = .ok () ∨
      ∃ j r, s.schedules.get? j = some r ∧ r.status = .active ∧ r.partition = r'.partition
  occurrences : ∀ k o', s'.occurrences.get? k = some o' → s.occurrences.get? k = some o' ∨
    s.assertAuthorityOpen o'.partition = .ok () ∨
      ∃ j r, s.schedules.get? j = some r ∧ r.status = .active ∧ r.partition = o'.partition

/-- In a recorded lane there is no open work. -/
theorem InMemoryScheduleStore.Fenced.no_work (hf : s.Fenced) {lane : WorkAuthorityLane}
    {record : ScheduleAuthorityRetirementRecord} (hrecord : s.retirements.get? lane = some record)
    {p : SchedulePartition} (hp : p = lane.partition) :
    ¬ (s.assertAuthorityOpen p = .ok () ∨
      ∃ j r, s.schedules.get? j = some r ∧ r.status = .active ∧ r.partition = p) := by
  rintro (hopen | ⟨j, r, hr, hactive, hpartition⟩)
  · exact s.not_open hp hrecord hopen
  · exact (hf lane record hrecord).schedules j r hr (hpartition.trans hp) hactive

/-- Work at an active schedule is open. -/
theorem InMemoryScheduleStore.Fenced.open_of_active (hf : s.Fenced) {k : GameScheduleKey}
    {r : GameScheduleRecord} (hr : s.schedules.get? k = some r) (hactive : r.status = .active) :
    s.assertAuthorityOpen r.partition = .ok () := by
  unfold assertAuthorityOpen
  cases hlane : r.partition.lane? with
  | none => rfl
  | some lane =>
    dsimp only
    by_cases hhas : s.retirements.has lane = true
    · obtain ⟨record, hrecord⟩ := OrderedMap.has_iff.1 hhas
      exact absurd hactive
        ((hf lane record hrecord).schedules k r hr (lane?_eq_some_iff.1 hlane))
    · rw [if_neg hhas]

theorem RespectsFences.kept (h : RespectsFences s s') (hf : s.Fenced) {lane : WorkAuthorityLane}
    {record : ScheduleAuthorityRetirementRecord} (hrecord : s.retirements.get? lane = some record) :
    LaneKept s lane record s' := by
  refine ⟨⟨record, h.retirements ▸ hrecord, Or.inl rfl⟩, fun k o' ho' hlane => ?_⟩
  rcases h.occurrences k o' ho' with hget | hwork
  · exact ⟨o', hget, hlane, Or.inl rfl⟩
  · exact absurd hwork (hf.no_work hrecord hlane)

theorem RespectsFences.fenced (h : RespectsFences s s') (hf : s.Fenced) : s'.Fenced := by
  intro lane record hrecord
  rw [h.retirements] at hrecord
  have hlane := hf lane record hrecord
  refine ⟨hlane.ofLane, h.retirementIds ▸ hlane.identifier, fun k r' hr' hpartition hactive => ?_,
    fun hphase k o' ho' hpartition => ?_⟩
  · exact hf.no_work hrecord hpartition (h.schedules k r' hr' hactive)
  · rcases h.occurrences k o' ho' with hget | hwork
    · exact hlane.occurrences hphase k o' hget hpartition
    · exact absurd hwork (hf.no_work hrecord hpartition)

theorem Creates.respects {schedule : GameScheduleDraft Decimal} (h : Creates ctx s schedule s') :
    RespectsFences s s' := by
  obtain ⟨-, -, hopen, -, rfl⟩ := h
  refine ⟨rfl, rfl, fun k r' hr' hactive => ?_, fun k o' ho' => Or.inl ho'⟩
  by_cases hk : schedule.key = k
  · subst hk
    dsimp only at hr'
    rw [OrderedMap.get?_set_self, Option.some.injEq] at hr'
    subst hr'
    exact Or.inl hopen
  · dsimp only at hr'
    rw [OrderedMap.get?_set_of_ne _ hk] at hr'
    exact Or.inr ⟨k, r', hr', hactive, rfl⟩

theorem cancelSchedule_respects {key : GameScheduleKey} {expectedRevision recordedAt : String}
    {r : GameScheduleRecord}
    (h : s.cancelSchedule ctx key expectedRevision recordedAt = .ok (r, s')) :
    RespectsFences s s' := by
  obtain ⟨q, -, -, -, hcancelled, rfl⟩ := cancelSchedule_spec h
  refine ⟨rfl, rfl, fun k r' hr' hactive => ?_, fun k o' ho' => Or.inl ho'⟩
  by_cases hk : key = k
  · subst hk
    dsimp only at hr'
    rw [OrderedMap.get?_set_self, Option.some.injEq] at hr'
    subst hr'
    rw [hcancelled.status] at hactive
    cases hactive
  · dsimp only at hr'
    rw [OrderedMap.get?_set_of_ne _ hk] at hr'
    exact Or.inr ⟨k, r', hr', hactive, rfl⟩

/-- What an advance makes belongs to a schedule that was active when it was committed. -/
theorem commitAdvance_respects {plan : AdvancePlan} {loop : AdvanceLoop ctx}
    {result : ScheduleAdvanceResult} (hs : s.Sound ctx) (hready : AdvanceReady ctx plan loop)
    (h : s.commitAdvance ctx plan loop = .ok (result, s')) : RespectsFences s s' := by
  obtain ⟨hwrites, hgenerated⟩ := commitAdvance_spec hs hready h
  have hactive : ∀ r ∈ plan.active, s.schedules.get? r.key = some r ∧ r.status = .active := by
    intro r hr
    rw [← hwrites.active] at hr
    exact ⟨(hs.active hr).1, (mem_activeSchedules.1 hr).2.1⟩
  refine ⟨hwrites.retirements, hwrites.retirementIds, fun k r' hr' hstatus => ?_,
    fun k o' ho' => ?_⟩
  · refine Or.inr ?_
    rcases hwrites.of_get? hs hr' with ⟨r, hr, -, hadv⟩ | ⟨hget, -⟩
    · exact ⟨r.key, r, (hactive r hr).1, (hactive r hr).2, by rw [hadv.draft]⟩
    · exact ⟨k, r', hget, hstatus, rfl⟩
  · rcases hwrites.occurrence_of_get? ho' with ⟨hmade, -⟩ | hget
    · obtain ⟨popped, hruns⟩ := hready.runs
      obtain ⟨made, hmade', hall, -⟩ := hruns.generated
      rw [hgenerated, hmade', AdvancePlan.start, List.nil_append] at hmade
      obtain ⟨c, hc, _, _, _, -, rfl⟩ := exists_left_of_forall₂ hall hmade
      obtain ⟨r, hr, _, _, -, -, -, hschedule, -⟩ :=
        hruns.due_of_popped (plan_sound hs hwrites.active) hc
      exact Or.inr (Or.inr ⟨r.key, r, (hactive r hr).1, (hactive r hr).2, by rw [← hschedule]; rfl⟩)
    · exact Or.inl hget

theorem Touches.respects (h : Touches ctx s s') : RespectsFences s s' := by
  refine ⟨h.retirements, h.retirementIds, fun k r' hr' hactive => ?_, fun k o' ho' => ?_⟩
  · rw [h.schedules] at hr'
    exact Or.inr ⟨k, r', hr', hactive, rfl⟩
  · obtain ⟨o, ho, rfl | ⟨htouched, hopen, -⟩⟩ := h.of_get? ho'
    · exact Or.inl ho
    · exact Or.inr (Or.inl (htouched.partition ▸ hopen))

theorem Purges.respects (h : Purges s s') : RespectsFences s s' :=
  ⟨h.retirements, h.retirementIds,
    fun k r' hr' hactive => Or.inr ⟨k, r', h.schedule_of_get? hr', hactive, rfl⟩,
    fun _ _ ho' => Or.inl (h.occurrence_of_get? ho')⟩

/-! ## The phases -/

section Phases

variable {request : WorkAuthorityRetirementRequest} {phase : RetirementPhase}
  {retirement : ScheduleAuthorityRetirementRecord}

/-- A request that does not conflict names its lane and its identifier as they are recorded. -/
theorem retirementConflict_eq_false_iff :
    s.retirementConflict request = false ↔
      (∀ lane, s.retirementIds.get? request.retirementId = some lane → lane = request.partition) ∧
        ∀ record, s.retirements.get? request.partition = some record →
          record.toWorkAuthorityRetirementRequest = request := by
  rw [retirementConflict, Bool.or_eq_false_iff]
  cases s.retirementIds.get? request.retirementId <;>
    cases s.retirements.get? request.partition <;> simp

/-- An active schedule that is left is not one of the lane. -/
theorem Retires.active (h : Retires ctx s request phase retirement s') {k : GameScheduleKey}
    {r' : GameScheduleRecord} (hr' : s'.schedules.get? k = some r') (hactive : r'.status = .active) :
    s.schedules.get? k = some r' ∧ r'.partition ≠ request.partition.partition := by
  obtain ⟨r, hr, ⟨-, hcancelled⟩ | ⟨hnot, rfl⟩⟩ := h.schedules.of_get? hr'
  · rw [hcancelled.status] at hactive
    cases hactive
  · exact ⟨hr, fun hpartition => hnot ⟨hactive, hpartition⟩⟩

/-- A pending occurrence that is left was pending before and is not one the phase cancels. -/
theorem Retires.pending (h : Retires ctx s request phase retirement s') {k : Nat}
    {o' : ScheduledOccurrenceRecord} (ho' : s'.occurrences.get? k = some o')
    (hpending : o'.status = .pending) :
    s.occurrences.get? k = some o' ∧
      (o'.partition = request.partition.partition → phase ≠ .finalized) := by
  obtain ⟨o, ho, ⟨-, hcancelled⟩ | ⟨hnot, rfl⟩⟩ := h.occurrences.of_get? ho'
  · rw [hcancelled.status] at hpending
    cases hpending
  · exact ⟨ho, fun hpartition hphase => hnot ⟨hpending, hpartition, Or.inl hphase⟩⟩

theorem Retires.kept (h : Retires ctx s request phase retirement s') {lane : WorkAuthorityLane}
    {record : ScheduleAuthorityRetirementRecord} (hrecord : s.retirements.get? lane = some record) :
    LaneKept s lane record s' := by
  have hsame := (retirementConflict_eq_false_iff.1 h.conflict).2
  constructor
  · by_cases hlane : request.partition = lane
    · subst hlane
      refine ⟨retirement, by rw [h.retirements, OrderedMap.get?_set_self], ?_⟩
      have hexisting := h.existing
      cases phase with
      | fenced =>
        rw [hrecord] at hexisting
        cases hexisting
      | finalized =>
        obtain ⟨record', hrecord', hfenced⟩ := hexisting
        rw [hrecord, Option.some.injEq] at hrecord'
        subst hrecord'
        exact Or.inr ⟨hfenced, h.inPhase, h.ofRequest.trans (hsame record hrecord).symm⟩
    · refine ⟨record, ?_, Or.inl rfl⟩
      rw [h.retirements, OrderedMap.get?_set_of_ne _ hlane, hrecord]
  · intro k o' ho' hpartition
    obtain ⟨o, ho, ⟨⟨hpending, -⟩, hcancelled⟩ | ⟨-, rfl⟩⟩ := h.occurrences.of_get? ho'
    · exact ⟨o, ho, hcancelled.partition.symm.trans hpartition, Or.inr ⟨hpending, hcancelled⟩⟩
    · exact ⟨o', ho, hpartition, Or.inl rfl⟩

theorem Retires.fenced (h : Retires ctx s request phase retirement s') (hf : s.Fenced) :
    s'.Fenced := by
  have hids := (retirementConflict_eq_false_iff.1 h.conflict).1
  intro lane record hrecord
  rw [h.retirements] at hrecord
  by_cases hlane : request.partition = lane
  · subst hlane
    rw [OrderedMap.get?_set_self, Option.some.injEq] at hrecord
    subst hrecord
    refine ⟨by rw [h.ofRequest], ?_, fun k r' hr' hpartition hactive => ?_,
      fun hphase k o' ho' hpartition hpending => ?_⟩
    · rw [h.retirementIds, h.ofRequest, OrderedMap.get?_set_self]
    · exact (h.active hr' hactive).2 hpartition
    · exact (h.pending ho' hpending).2 hpartition (h.inPhase.symm.trans hphase)
  · rw [OrderedMap.get?_set_of_ne _ hlane] at hrecord
    have hold := hf lane record hrecord
    refine ⟨hold.ofLane, ?_, fun k r' hr' hpartition hactive => ?_,
      fun hphase k o' ho' hpartition hpending => ?_⟩
    · -- another lane has another identifier
      have hne : request.retirementId ≠ record.retirementId := fun heq =>
        hlane (hids lane (heq ▸ hold.identifier)).symm
      rw [h.retirementIds, OrderedMap.get?_set_of_ne _ hne]
      exact hold.identifier
    · exact hold.schedules k r' (h.active hr' hactive).1 hpartition hactive
    · exact hold.occurrences hphase k o' (h.pending ho' hpending).1 hpartition hpending

end Phases

/-! ## Steps and runs -/

/-- A write either phase of a retirement makes, or one that respects the fences. -/
theorem ScheduleStep.retires_or_respects (h : ScheduleStep ctx s s') (hs : s.Sound ctx) :
    (∃ request phase retirement, Retires ctx s request phase retirement s') ∨
      RespectsFences s s' := by
  have hrefl : RespectsFences s s :=
    ⟨rfl, rfl, fun k r hr hactive => Or.inr ⟨k, r, hr, hactive, rfl⟩, fun _ _ => Or.inl⟩
  cases h with
  | create h =>
    rcases create_spec h with rfl | ⟨schedule, hcreates⟩
    · exact Or.inr hrefl
    · exact Or.inr hcreates.respects
  | retire h =>
    obtain ⟨request, -, ⟨-, -, -, rfl⟩ | hretires⟩ := retireAuthority_spec hs h
    · exact Or.inr hrefl
    · exact Or.inl ⟨_, _, _, hretires⟩
  | cancel h => exact Or.inr (cancelSchedule_respects h)
  | advance hready h => exact Or.inr (commitAdvance_respects hs hready h)
  | claim hdeliveries h => exact Or.inr (commitClaim_spec hdeliveries h).respects
  | complete h => exact Or.inr (completeOccurrence_spec hs h).respects
  | abandon h => exact Or.inr (abandonOccurrence_spec hs h).respects
  | purgeOccurrences h => exact Or.inr (purgeTerminalOccurrences_spec hs h).respects
  | purgeSchedules h => exact Or.inr (purgeTerminalSchedules_spec h).respects
  | purgeAdvances h => exact Or.inr (purgeAdvances_spec h).respects

theorem ScheduleStep.fenced (h : ScheduleStep ctx s s') (hs : s.Sound ctx) (hf : s.Fenced) :
    s'.Fenced := by
  rcases h.retires_or_respects hs with ⟨_, _, _, hretires⟩ | hrespects
  · exact hretires.fenced hf
  · exact hrespects.fenced hf

theorem ScheduleStep.kept (h : ScheduleStep ctx s s') (hs : s.Sound ctx) (hf : s.Fenced)
    {lane : WorkAuthorityLane} {record : ScheduleAuthorityRetirementRecord}
    (hrecord : s.retirements.get? lane = some record) : LaneKept s lane record s' := by
  rcases h.retires_or_respects hs with ⟨_, _, _, hretires⟩ | hrespects
  · exact hretires.kept hrecord
  · exact hrespects.kept hf hrecord

theorem SchedulePath.fenced (h : SchedulePath ctx s s') (hs : s.Sound ctx) (hf : s.Fenced) :
    s'.Fenced := by
  induction h with
  | refl => exact hf
  | tail hpath hstep ih => exact hstep.fenced (SchedulePath.sound hpath hs) ih

/-- Whatever is called, a recorded lane stays recorded, and its occurrences are kept or
cancelled. -/
theorem SchedulePath.kept (h : SchedulePath ctx s s') (hs : s.Sound ctx) (hf : s.Fenced)
    {lane : WorkAuthorityLane} {record : ScheduleAuthorityRetirementRecord}
    (hrecord : s.retirements.get? lane = some record) : LaneKept s lane record s' := by
  induction h with
  | refl =>
    exact ⟨⟨record, hrecord, Or.inl rfl⟩, fun k o ho hpartition =>
      ⟨o, ho, hpartition, Or.inl rfl⟩⟩
  | tail hpath hstep ih =>
    obtain ⟨record', hrecord', hkept⟩ := ih.record
    have hlast := hstep.kept (SchedulePath.sound hpath hs) (SchedulePath.fenced hpath hs hf)
      hrecord'
    obtain ⟨record'', hrecord'', hkept'⟩ := hlast.record
    refine ⟨⟨record'', hrecord'', hkept.trans hkept'⟩, fun k o'' ho'' hpartition => ?_⟩
    obtain ⟨o', ho', hpartition', hkept''⟩ := hlast.occurrences k o'' ho'' hpartition
    obtain ⟨o, ho, hlane, hkept⟩ := ih.occurrences k o' ho' hpartition'
    exact ⟨o, ho, hlane, hkept.trans hkept''⟩

/-! ## The fence -/

/-- What beginning a retirement did: nothing if it had begun before; otherwise it
cancelled and counted the lane's active schedules and unleased pending occurrences. -/
def Begins (ctx : ScheduleContext) (s : InMemoryScheduleStore)
    (request : WorkAuthorityRetirementRequest) (record : ScheduleAuthorityRetirementRecord)
    (s₁ : InMemoryScheduleStore) : Prop :=
  (s.retirements.get? request.partition = some record ∧ s₁ = s) ∨
    (s.retirements.get? request.partition = none ∧ Retires ctx s request .fenced record s₁ ∧
      record.cancelledScheduleCount = (s.laneSchedules request.partition).length ∧
      record.cancelledOccurrenceCount = (s.laneOccurrences request.partition .fenced).length)

/-- What finalizing a retirement does to a store: nothing if it was final; otherwise it
cancels the lane's pending occurrences and adds them to the count. -/
def Finalizes (ctx : ScheduleContext) (s₂ : InMemoryScheduleStore)
    (request : WorkAuthorityRetirementRequest) (stored record : ScheduleAuthorityRetirementRecord)
    (s₃ : InMemoryScheduleStore) : Prop :=
  (stored.phase = .finalized ∧ record = stored ∧ s₃ = s₂) ∨
    (stored.phase = .fenced ∧ Retires ctx s₂ request .finalized record s₃ ∧
      record.cancelledScheduleCount = stored.cancelledScheduleCount ∧
      record.cancelledOccurrenceCount = stored.cancelledOccurrenceCount +
        (s₂.laneOccurrences request.partition .finalized).length)

/-- A lane in which nothing is pending. -/
def InMemoryScheduleStore.Drained (s : InMemoryScheduleStore) (lane : WorkAuthorityLane) : Prop :=
  ∀ k o, s.occurrences.get? k = some o → o.partition = lane.partition → o.status ≠ .pending

/-- What holds of a store `s₂` that comes at or after the store `s₁` at which a lane was
fenced, with the record `stored` that it then has. -/
structure FencedSince (ctx : ScheduleContext) (s₁ : InMemoryScheduleStore)
    (request : WorkAuthorityRetirementRequest) (s₂ : InMemoryScheduleStore)
    (stored : ScheduleAuthorityRetirementRecord) : Prop where
  recorded : s₂.retirements.get? request.partition = some stored
  idle : ∀ k r, s₂.schedules.get? k = some r → r.partition = request.partition.partition →
    r.status ≠ .active
  occurrences : ∀ k o', s₂.occurrences.get? k = some o' →
    o'.partition = request.partition.partition →
      ∃ o, s₁.occurrences.get? k = some o ∧ o.KeptOrCancelled o'
  drained : stored.phase = .finalized → s₂.Drained request.partition
  beginAgain : ∀ input, normalizeScheduleAuthorityRetirement input ctx.limits = .ok request →
    s₂.retireAuthority ctx input .fenced = .ok (stored, s₂)
  finalize : ∀ input record s₃,
    normalizeScheduleAuthorityRetirement input ctx.limits = .ok request →
      s₂.retireAuthority ctx input .finalized = .ok (record, s₃) →
        Finalizes ctx s₂ request stored record s₃ ∧ s₃.Drained request.partition
  finalizeAgain : stored.phase = .finalized → ∀ input,
    normalizeScheduleAuthorityRetirement input ctx.limits = .ok request →
      s₂.retireAuthority ctx input .finalized = .ok (stored, s₂)
  conflict : ∀ input other phase,
    normalizeScheduleAuthorityRetirement input ctx.limits = .ok other → other ≠ request →
      other.partition = request.partition ∨ other.retirementId = request.retirementId →
        s₂.retireAuthority ctx input phase = .error .workAuthorityRetirementConflict

section Answers

variable {input : WorkAuthorityRetirementRequest} {request : WorkAuthorityRetirementRequest}
  {stored : ScheduleAuthorityRetirementRecord} {phase : RetirementPhase}

/-- A phase that is over answers with the record. -/
theorem retireAuthority_repeated
    (hrequest : normalizeScheduleAuthorityRetirement input ctx.limits = .ok request)
    (hconflict : s.retirementConflict request = false)
    (hstored : s.retirements.get? request.partition = some stored)
    (hphase : phase = .fenced ∨ stored.phase = .finalized) :
    s.retireAuthority ctx input phase = .ok (stored, s) := by
  have hfilter : (s.retirements.get? request.partition).filter (fun record =>
      phase = .fenced || record.phase = .finalized) = some stored := by
    rw [Option.filter_eq_some_iff]
    simpa [hstored] using hphase
  rw [retireAuthority, hrequest]
  simp only [bind, Except.bind, hconflict, Bool.not_false, require, if_true, hfilter]
  rfl

theorem retireAuthority_conflict
    (hrequest : normalizeScheduleAuthorityRetirement input ctx.limits = .ok request)
    (hconflict : s.retirementConflict request = true) :
    s.retireAuthority ctx input phase = .error .workAuthorityRetirementConflict := by
  rw [retireAuthority, hrequest]
  simp only [bind, Except.bind, hconflict, require]
  rfl

end Answers

/-- A lane without active schedules has none to cancel. -/
theorem laneSchedules_eq_nil {lane : WorkAuthorityLane}
    (h : ∀ k r, s.schedules.get? k = some r → r.partition = lane.partition → r.status ≠ .active) :
    s.laneSchedules lane = [] := by
  rw [laneSchedules, List.filter_eq_nil_iff]
  intro r hr
  obtain ⟨k, hk⟩ := OrderedMap.mem_values.1 hr
  simp only [Bool.and_eq_true, decide_eq_true_eq, sameScheduleAuthorityLane_iff, not_and]
  exact fun hactive hpartition => h k r hk hpartition hactive

/-- A finalization that answers has drained the lane. -/
theorem retireAuthority_finalized {input request : WorkAuthorityRetirementRequest}
    {stored record : ScheduleAuthorityRetirementRecord} (hs : s.Sound ctx) (hf : s.Fenced)
    (hrequest : normalizeScheduleAuthorityRetirement input ctx.limits = .ok request)
    (hstored : s.retirements.get? request.partition = some stored)
    (h : s.retireAuthority ctx input .finalized = .ok (record, s')) :
    Finalizes ctx s request stored record s' ∧ s'.Drained request.partition := by
  have hlane := hf _ _ hstored
  obtain ⟨request', hrequest', hcase⟩ := retireAuthority_spec hs h
  rw [hrequest, Except.ok.injEq] at hrequest'
  subst hrequest'
  rcases hcase with ⟨-, hget, hphase, rfl⟩ | hretires
  · rw [hstored, Option.some.injEq] at hget
    subst hget
    have hfinal : stored.phase = .finalized := hphase.resolve_left nofun
    exact ⟨Or.inl ⟨hfinal, rfl, rfl⟩, hlane.occurrences hfinal⟩
  · obtain ⟨record', hrecord', hfenced⟩ := hretires.existing
    rw [hstored, Option.some.injEq] at hrecord'
    subst hrecord'
    have hschedules := hretires.scheduleCount
    have hoccurrences := hretires.occurrenceCount
    rw [hstored, Option.map_some, Option.getD_some] at hschedules hoccurrences
    rw [laneSchedules_eq_nil hlane.schedules, List.length_nil, Nat.add_zero] at hschedules
    refine ⟨Or.inr ⟨hfenced, hretires, hschedules, hoccurrences⟩, ?_⟩
    intro k o ho hpartition hpending
    exact (hretires.pending ho hpending).2 hpartition rfl

theorem fencedSince {s₁ s₂ : InMemoryScheduleStore} {request : WorkAuthorityRetirementRequest}
    {stored : ScheduleAuthorityRetirementRecord} (hs : s₂.Sound ctx) (hf : s₂.Fenced)
    (hstored : s₂.retirements.get? request.partition = some stored)
    (hsame : stored.toWorkAuthorityRetirementRequest = request)
    (hkept : ∀ k o', s₂.occurrences.get? k = some o' →
      o'.partition = request.partition.partition →
        ∃ o, s₁.occurrences.get? k = some o ∧ o.KeptOrCancelled o') :
    FencedSince ctx s₁ request s₂ stored := by
  have hlane := hf _ _ hstored
  have hid : s₂.retirementIds.get? request.retirementId = some request.partition := by
    have hidentifier := hlane.identifier
    rw [hsame] at hidentifier
    exact hidentifier
  have hconflict : s₂.retirementConflict request = false := by
    refine retirementConflict_eq_false_iff.2 ⟨fun lane hget => ?_, fun record hget => ?_⟩
    · rw [hid, Option.some.injEq] at hget
      exact hget.symm
    · rw [hstored, Option.some.injEq] at hget
      exact hget ▸ hsame
  refine ⟨hstored, hlane.schedules, hkept, hlane.occurrences, ?_, ?_, ?_, ?_⟩
  · exact fun input hrequest => retireAuthority_repeated hrequest hconflict hstored (Or.inl rfl)
  · exact fun input record s₃ hrequest h => retireAuthority_finalized hs hf hrequest hstored h
  · exact fun hfinal input hrequest =>
      retireAuthority_repeated hrequest hconflict hstored (Or.inr hfinal)
  · intro input other phase hother hne hshared
    refine retireAuthority_conflict hother ?_
    rw [← Bool.not_eq_false, retirementConflict_eq_false_iff]
    rintro ⟨hids, hrecords⟩
    rcases hshared with hpartition | hidentifier
    · exact hne ((hrecords stored (hpartition ▸ hstored)).symm.trans hsame)
    · rw [hidentifier] at hids
      have hpartition := hids _ hid
      exact hne ((hrecords stored (hpartition ▸ hstored)).symm.trans hsame)

/-- Retirement is a permanent fence.  A run, however its calls are nested, is such a
sequence of writes; whatever comes after the retirement of a lane has begun, the lane
stays fenced. -/
theorem retirement_fences (hs : SchedulePath ctx .empty s) {input : WorkAuthorityRetirementRequest}
    {record : ScheduleAuthorityRetirementRecord} {s₁ : InMemoryScheduleStore}
    (hbegin : s.retireAuthority ctx input .fenced = .ok (record, s₁)) :
    ∃ request, normalizeScheduleAuthorityRetirement input ctx.limits = .ok request ∧
      Begins ctx s request record s₁ ∧
        ∀ s₂, SchedulePath ctx s₁ s₂ → ∃ stored, record.KeptOrFinalized stored ∧
          FencedSince ctx s₁ request s₂ stored := by
  have hsound := hs.sound empty_sound
  have hfenced := hs.fenced empty_sound empty_fenced
  have hsound₁ := (ScheduleStep.retire hbegin).sound hsound
  have hfenced₁ := (ScheduleStep.retire hbegin).fenced hsound hfenced
  obtain ⟨request, hrequest, hcase⟩ := retireAuthority_spec hsound hbegin
  have hrecord : s₁.retirements.get? request.partition = some record ∧
      record.toWorkAuthorityRetirementRequest = request := by
    rcases hcase with ⟨hconflict, hget, -, rfl⟩ | hretires
    · exact ⟨hget, (retirementConflict_eq_false_iff.1 hconflict).2 record hget⟩
    · rw [hretires.retirements, OrderedMap.get?_set_self]
      exact ⟨rfl, hretires.ofRequest⟩
  refine ⟨request, hrequest, ?_, fun s₂ hpath => ?_⟩
  · rcases hcase with ⟨-, hget, -, rfl⟩ | hretires
    · exact Or.inl ⟨hget, rfl⟩
    · have hnone : s.retirements.get? request.partition = none := hretires.existing
      refine Or.inr ⟨hnone, hretires, ?_, ?_⟩
      · simpa [hnone] using hretires.scheduleCount
      · simpa [hnone] using hretires.occurrenceCount
  · have hkept := hpath.kept hsound₁ hfenced₁ hrecord.1
    obtain ⟨stored, hstored, hphase⟩ := hkept.record
    refine ⟨stored, hphase, fencedSince (hpath.sound hsound₁) (hpath.fenced hsound₁ hfenced₁)
      hstored ?_ fun k o' ho' hpartition => ?_⟩
    · rcases hphase with rfl | ⟨-, -, hrequest'⟩
      · exact hrecord.2
      · exact hrequest'.trans hrecord.2
    · obtain ⟨o, ho, -, ho'⟩ := hkept.occurrences k o' ho' hpartition
      exact ⟨o, ho, ho'⟩

/-- An orchard somebody works on. -/
def orchard : WorkAuthorityLane where
  toScheduleGeneration := field.toScheduleGeneration
  sessionId := "s"
  actorId := "a"

def retireOrchard : WorkAuthorityRetirementRequest where
  retirementId := "r"
  partition := orchard
  recordedAt := "1970-01-01T00:00:00.000Z"

/-- The orchard when its harvest is scheduled. -/
def planted : InMemoryScheduleStore :=
  (respond ((ScheduleCall.create (harvest orchard.partition "2" "3") 4).run smallContext) .empty).2

/-- Retiring the orchard cancels its harvest for good. -/
theorem retirement_fences_orchard :
    ∃ (record : ScheduleAuthorityRetirementRecord) (s₁ : InMemoryScheduleStore),
      planted.retireAuthority smallContext retireOrchard .fenced = .ok (record, s₁) ∧
      record.cancelledScheduleCount = 1 ∧
      ∀ s₂, SchedulePath smallContext s₁ s₂ → ∀ k r, s₂.schedules.get? k = some r →
        r.partition = orchard.partition → r.status ≠ .active := by
  have hplanted : SchedulePath smallContext .empty planted :=
    (ScheduleRun.call (.create (harvest orchard.partition "2" "3") 4) (.refl _)
      fun _ u => .refl u).path
  cases hbegin : planted.retireAuthority smallContext retireOrchard .fenced with
  | error e =>
    have hanswers : (planted.retireAuthority smallContext retireOrchard .fenced).toBool = true :=
      by decide +kernel
    rw [hbegin] at hanswers
    cases hanswers
  | ok pair =>
    obtain ⟨record, s₁⟩ := pair
    obtain ⟨request, hrequest, hbegins, hfence⟩ := retirement_fences hplanted hbegin
    have hsame : normalizeScheduleAuthorityRetirement retireOrchard smallContext.limits =
        .ok retireOrchard := rfl
    rw [hsame, Except.ok.injEq] at hrequest
    subst hrequest
    refine ⟨record, s₁, rfl, ?_, fun s₂ hpath => ?_⟩
    · rcases hbegins with ⟨hget, -⟩ | ⟨-, -, hcount, -⟩
      · have hnone : planted.retirements.get? retireOrchard.partition = none := by decide +kernel
        rw [hnone] at hget
        cases hget
      · rw [hcount]
        decide +kernel
    · obtain ⟨stored, -, hsince⟩ := hfence s₂ hpath
      exact hsince.idle

end OpenGameAgent
