import OpenGameAgent.Extensions.ScheduleInvariants

/-!
# What each method writes

One specification for each method of the store that writes, and from them
`ScheduleStep.sound` and `ScheduleRun.sound`: whatever the host calls, the store stays
sound.
-/

namespace OpenGameAgent

open InMemoryScheduleStore

variable {ctx : ScheduleContext} {s s' : InMemoryScheduleStore}

/-! ## Creation -/

/-- What `create` writes when the schedule is new. -/
structure Creates (ctx : ScheduleContext) (s : InMemoryScheduleStore)
    (schedule : GameScheduleDraft Decimal) (s' : InMemoryScheduleStore) : Prop where
  accepted : schedule.Accepted ctx.limits
  absent : s.schedules.get? schedule.key = none
  opened : s.assertAuthorityOpen schedule.partition = .ok ()
  clock : ∀ t, s.clocks.get? schedule.partition.toScheduleGeneration = some t →
    t.value < schedule.dueTime.tick.value
  store : s' = { s with
    nextScheduleKey := s.nextScheduleKey + 1
    schedules := s.schedules.set schedule.key (scheduleRecord schedule s.nextScheduleKey)
    scheduleFingerprints :=
      s.scheduleFingerprints.set schedule.key (scheduleFingerprint schedule) }

theorem create_spec {input : GameScheduleDraft String} {maxActive : Nat} {r : GameScheduleRecord}
    (h : s.create ctx input maxActive = .ok (r, s')) :
    s' = s ∨ ∃ schedule, Creates ctx s schedule s' := by
  simp only [create, bind_eq_ok] at h
  obtain ⟨_, -, schedule, hschedule, ⟨⟩, hopen, h⟩ := h
  have haccepted := (normalizeGameSchedule_spec hschedule).1
  cases hget : s.schedules.get? schedule.key with
  | some existing =>
    simp only [hget, bind_eq_ok] at h
    obtain ⟨_, -, h⟩ := h
    have hresult := return_eq_ok.1 h
    rw [Prod.mk.injEq] at hresult
    exact Or.inl hresult.2
  | none =>
    simp only [hget, bind_eq_ok, require_eq_ok, Bool.not_eq_true'] at h
    obtain ⟨_, hclock, _, -, h⟩ := h
    have hresult := return_eq_ok.1 h
    rw [Prod.mk.injEq] at hresult
    refine Or.inr ⟨schedule, haccepted, hget, hopen, fun t ht => ?_, hresult.2⟩
    rw [ht, Option.any_some] at hclock
    have hnot : ¬ schedule.dueTime.tick.value ≤ t.value := by
      rw [← scheduleDecimalLe_iff, hclock]
      exact Bool.false_ne_true
    exact not_le.1 hnot

/-- A new schedule has everything to come. -/
theorem scheduleRecord_recurrence (schedule : GameScheduleDraft Decimal) (scheduleKey : Nat) :
    (scheduleRecord schedule scheduleKey).recurrence = some {
      next := schedule.dueTime.tick.value
      step := schedule.step
      made := 0
      bound := schedule.bound } := by
  simp [GameScheduleRecord.recurrence, scheduleRecord]

theorem scheduleRecord_sound {schedule : GameScheduleDraft Decimal}
    (h : schedule.Accepted ctx.limits) (scheduleKey : Nat) :
    (scheduleRecord schedule scheduleKey).Sound ctx schedule.key := by
  refine ⟨rfl, h, h.recordedAt, fun _ => ⟨_, scheduleRecord_recurrence .., ?_, ?_⟩,
    fun hne => absurd rfl hne⟩
  · intro b hb
    simp only [GameScheduleDraft.bound, Option.map_eq_some_iff] at hb
    obtain ⟨m, hm, rfl⟩ := hb
    exact h.maximum m hm
  · cases hinterval : schedule.intervalTicks with
    | some ticks =>
      refine Or.inl ?_
      simp only [GameScheduleDraft.step, hinterval, Option.map_some, Option.getD_some]
      exact h.interval ticks hinterval
    | none =>
      refine Or.inr ?_
      simp only [GameScheduleDraft.bound, h.oneShot hinterval, Option.map_some,
        Decimal.value_ofNat]

theorem Creates.sound {schedule : GameScheduleDraft Decimal} (h : Creates ctx s schedule s')
    (hs : s.Sound ctx) : s'.Sound ctx := by
  obtain ⟨haccepted, habsent, -, hclock, rfl⟩ := h
  -- a schedule of the new store is the new one or one of the old store
  have hget : ∀ k r, (s.schedules.set schedule.key
      (scheduleRecord schedule s.nextScheduleKey)).get? k = some r →
      (k = schedule.key ∧ r = scheduleRecord schedule s.nextScheduleKey) ∨
        s.schedules.get? k = some r := by
    intro k r hr
    by_cases hk : schedule.key = k
    · subst hk
      rw [OrderedMap.get?_set_self, Option.some.injEq] at hr
      exact Or.inl ⟨rfl, hr.symm⟩
    · rw [OrderedMap.get?_set_of_ne _ hk] at hr
      exact Or.inr hr
  refine ⟨?_, ?_, ?_, ?_, hs.occurrence, hs.freshOccurrence⟩
  · intro k r hr
    rcases hget k r hr with ⟨rfl, rfl⟩ | hr
    · exact scheduleRecord_sound haccepted _
    · exact hs.schedule k r hr
  · intro k r hr
    rcases hget k r hr with ⟨rfl, rfl⟩ | hr
    · exact Nat.lt_succ_self _
    · exact Nat.lt_succ_of_lt (hs.fresh k r hr)
  · intro k j r q hr hq heq
    rcases hget k r hr with ⟨rfl, rfl⟩ | hr <;> rcases hget j q hq with ⟨rfl, rfl⟩ | hq
    · rfl
    · exact absurd heq.symm (Nat.ne_of_lt (hs.fresh j q hq))
    · exact absurd heq (Nat.ne_of_lt (hs.fresh k r hr))
    · exact hs.distinct k j r q hr hq heq
  · intro k r R t hr hR ht
    rcases hget k r hr with ⟨rfl, rfl⟩ | hr
    · rw [scheduleRecord_recurrence] at hR
      cases hR
      exact hclock t ht
    · exact hs.clock k r R t hr hR ht

/-! ## Retirement and cancellation -/

/-- What the first or the second phase of a retirement writes. -/
structure Retires (ctx : ScheduleContext) (s : InMemoryScheduleStore)
    (request : WorkAuthorityRetirementRequest) (phase : RetirementPhase)
    (retirement : ScheduleAuthorityRetirementRecord) (s' : InMemoryScheduleStore) : Prop where
  conflict : s.retirementConflict request = false
  existing : match phase with
    | .fenced => s.retirements.get? request.partition = none
    | .finalized => ∃ record, s.retirements.get? request.partition = some record ∧
        record.phase = .fenced
  ofRequest : retirement.toWorkAuthorityRetirementRequest = request
  inPhase : retirement.phase = phase
  scheduleCount : retirement.cancelledScheduleCount =
    ((s.retirements.get? request.partition).map fun record =>
      record.cancelledScheduleCount).getD 0 + (s.laneSchedules request.partition).length
  occurrenceCount : retirement.cancelledOccurrenceCount =
    ((s.retirements.get? request.partition).map fun record =>
      record.cancelledOccurrenceCount).getD 0 + (s.laneOccurrences request.partition phase).length
  schedules : OrderedMap.Rewrites (fun r => r.status = .active ∧ r.partition =
    request.partition.partition) GameScheduleRecord.Cancelled s.schedules s'.schedules
  occurrences : OrderedMap.Rewrites (fun o => o.status = .pending ∧
    o.partition = request.partition.partition ∧
      (phase = .finalized ∨ s.leases.has o.occurrenceKey = false))
    ScheduledOccurrenceRecord.Cancelled s.occurrences s'.occurrences
  retirements : s'.retirements = s.retirements.set request.partition retirement
  retirementIds : s'.retirementIds = s.retirementIds.set request.retirementId request.partition
  clocks : s'.clocks = s.clocks
  leases : ∃ p, s'.leases = s.leases.filterKeys p ∧ ∀ k o, s.occurrences.get? k = some o →
    o.partition ≠ request.partition.partition → p k = true
  nextScheduleKey : s'.nextScheduleKey = s.nextScheduleKey
  nextOccurrenceKey : s'.nextOccurrenceKey = s.nextOccurrenceKey

theorem retireAuthority_spec {input : WorkAuthorityRetirementRequest} {phase : RetirementPhase}
    {retirement : ScheduleAuthorityRetirementRecord} (hs : s.Sound ctx)
    (h : s.retireAuthority ctx input phase = .ok (retirement, s')) :
    ∃ request, normalizeScheduleAuthorityRetirement input ctx.limits = .ok request ∧
      ((s.retirementConflict request = false ∧
          s.retirements.get? request.partition = some retirement ∧
          (phase = .fenced ∨ retirement.phase = .finalized) ∧ s' = s) ∨
        Retires ctx s request phase retirement s') := by
  simp only [retireAuthority, bind_eq_ok, require_eq_ok, Bool.not_eq_true'] at h
  obtain ⟨request, hrequest, _, hconflict, h⟩ := h
  refine ⟨request, hrequest, ?_⟩
  cases hfilter : (s.retirements.get? request.partition).filter fun record =>
      phase = .fenced || record.phase = .finalized with
  | some record =>
    simp only [hfilter] at h
    have hresult := return_eq_ok.1 h
    rw [Prod.mk.injEq] at hresult
    obtain ⟨rfl, rfl⟩ := hresult
    rw [Option.filter_eq_some_iff] at hfilter
    simp only [Bool.or_eq_true, decide_eq_true_eq] at hfilter
    exact Or.inl ⟨hconflict, hfilter.1, hfilter.2, rfl⟩
  | none =>
    simp only [hfilter, bind_eq_ok, require_eq_ok, mapM_eq_ok_iff] at h
    obtain ⟨_, hphase, _, -, _, -, scheduleUpdates, hscheduleUpdates, occurrenceUpdates,
      hoccurrenceUpdates, h⟩ := h
    have hresult := return_eq_ok.1 h
    rw [Prod.mk.injEq] at hresult
    obtain ⟨rfl, rfl⟩ := hresult
    have hall : List.Forall₂ ScheduledOccurrenceRecord.Cancelled
        (s.laneOccurrences request.partition phase) occurrenceUpdates :=
      hoccurrenceUpdates.imp fun _ _ => cancelOccurrence_spec
    refine Or.inr ⟨hconflict, ?_, rfl, rfl, ?_, ?_, ?_, ?_, rfl, rfl, rfl,
      ⟨fun key => !occurrenceUpdates.any fun record => record.occurrenceKey = key, rfl, ?_⟩, rfl,
      rfl⟩
    · cases phase with
      | fenced =>
        cases hget : s.retirements.get? request.partition with
        | none => rfl
        | some record =>
          rw [hget] at hfilter
          simp at hfilter
      | finalized =>
        cases hget : s.retirements.get? request.partition with
        | none =>
          rw [hget] at hphase
          simp at hphase
        | some record =>
          rw [hget] at hfilter
          cases hrecord : record.phase with
          | fenced => exact ⟨record, rfl, hrecord⟩
          | finalized => simp [hrecord] at hfilter
    · exact congrArg _ hscheduleUpdates.length_eq.symm
    · exact congrArg _ hoccurrenceUpdates.length_eq.symm
    · have hall : List.Forall₂ GameScheduleRecord.Cancelled
          (s.laneSchedules request.partition) scheduleUpdates :=
        hscheduleUpdates.imp fun _ _ => cancelRecord_spec
      have hrewrites := OrderedMap.rewrites_foldl_set
        (fun k r hr => (hs.schedule k r hr).key) hall fun r r' hr => by rw [hr.draft]
      simp only [Bool.and_eq_true, decide_eq_true_eq, sameScheduleAuthorityLane_iff] at hrewrites
      exact hrewrites
    · have hrewrites := OrderedMap.rewrites_foldl_set
        (fun k o ho => (hs.occurrence k o ho).1) hall fun _ _ ho => ho.occurrenceKey
      simp only [Bool.and_eq_true, Bool.or_eq_true, decide_eq_true_eq, Bool.not_eq_true',
        sameScheduleAuthorityLane_iff, and_assoc] at hrewrites
      exact hrewrites
    · -- the lease of an occurrence of another lane stays
      intro k o ho hne
      rw [Bool.not_eq_true', List.any_eq_false]
      intro o' ho' hk
      rw [decide_eq_true_eq] at hk
      obtain ⟨q, hq, hcancelled⟩ := exists_left_of_forall₂ hall ho'
      rw [laneOccurrences, List.mem_filter, OrderedMap.mem_values] at hq
      obtain ⟨⟨j, hj⟩, hlane⟩ := hq
      have hjk : j = k := by
        rw [← (hs.occurrence j q hj).1, ← hcancelled.occurrenceKey, hk]
      subst hjk
      rw [ho, Option.some.injEq] at hj
      subst hj
      simp only [Bool.and_eq_true, sameScheduleAuthorityLane_iff] at hlane
      exact hne hlane.1.2

theorem Retires.sound {request : WorkAuthorityRetirementRequest} {phase : RetirementPhase}
    {retirement : ScheduleAuthorityRetirementRecord} (h : Retires ctx s request phase retirement s')
    (hs : s.Sound ctx) : s'.Sound ctx := by
  refine hs.of_schedules h.nextScheduleKey.ge h.clocks ?_ ?_
  · intro k o' ho'
    obtain ⟨o, ho, ⟨-, hcancelled⟩ | ⟨-, rfl⟩⟩ := h.occurrences.of_get? ho'
    · exact ⟨hcancelled.occurrenceKey.trans (hs.occurrence k o ho).1, hcancelled.updatedAt,
        h.nextOccurrenceKey ▸ hs.freshOccurrence k o ho⟩
    · exact h.nextOccurrenceKey ▸ hs.occurrences ho
  · intro k r' hr'
    obtain ⟨r, hr, ⟨-, hcancelled⟩ | ⟨-, rfl⟩⟩ := h.schedules.of_get? hr'
    · refine ⟨r, hr, hcancelled.scheduleKey, hcancelled.sound (hs.schedule k r hr), ?_⟩
      intro R hR
      rw [hcancelled.recurrence] at hR
      cases hR
    · exact ⟨r', hr, rfl, hs.schedule k r' hr, fun R hR => ⟨hR, rfl⟩⟩

/-- What `cancelSchedule` writes. -/
theorem cancelSchedule_spec {key : GameScheduleKey} {expectedRevision recordedAt : String}
    {r' : GameScheduleRecord}
    (h : s.cancelSchedule ctx key expectedRevision recordedAt = .ok (r', s')) :
    ∃ r, s.schedules.get? key = some r ∧ s.assertAuthorityOpen r.partition = .ok () ∧
      r.status = .active ∧ r.Cancelled r' ∧
        s' = { s with schedules := s.schedules.set key r' } := by
  simp only [cancelSchedule, bind_eq_ok] at h
  obtain ⟨key', hkey, _, -, _, -, h⟩ := h
  have hsame : key' = key := by
    simp only [validateGameScheduleKey, bind_eq_ok] at hkey
    obtain ⟨_, -, _, -, hkey⟩ := hkey
    exact return_eq_ok.1 hkey
  subst hsame
  cases hget : s.schedules.get? key' with
  | none =>
    rw [hget] at h
    cases h
  | some r =>
    simp only [hget, bind_eq_ok, require_eq_ok, decide_eq_true_eq] at h
    obtain ⟨⟨⟩, hopen, _, -, _, hactive, updated, hupdated, h⟩ := h
    have hresult := return_eq_ok.1 h
    rw [Prod.mk.injEq] at hresult
    obtain ⟨rfl, rfl⟩ := hresult
    exact ⟨r, rfl, hopen, hactive, cancelRecord_spec hupdated, rfl⟩

/-! ## Claiming and settling -/

/-- What becomes of an occurrence that is claimed, settled or abandoned. -/
structure ScheduledOccurrenceRecord.Touched (o o' : ScheduledOccurrenceRecord) : Prop where
  occurrenceKey : o'.occurrenceKey = o.occurrenceKey
  partition : o'.partition = o.partition
  revision : o'.revision.value = o.revision.value + 1
  updatedAt : isCanonicalTimestamp o'.updatedAt = true

theorem claimDelivery_spec {claim : ScheduleOccurrenceClaimRequest}
    {o : ScheduledOccurrenceRecord} {token : String} {delivery : ScheduledOccurrenceDelivery}
    (h : claimDelivery ctx claim o token = .ok delivery) :
    o.Touched delivery.occurrence ∧ delivery.occurrence.status = o.status := by
  simp only [claimDelivery, bind_eq_ok,
    incrementScheduleDecimal_eq_ok_iff ctx.maxCounterDigits_pos] at h
  obtain ⟨_, -, revision, ⟨hrevision, -⟩, attempt, -, updatedAt, hupdatedAt, h⟩ := h
  obtain rfl := return_eq_ok.1 h
  exact ⟨⟨rfl, rfl, hrevision, laterScheduleTimestamp_eq_ok hupdatedAt⟩, rfl⟩

theorem assertClaimable_eq_ok_iff {selected : List ScheduledOccurrenceRecord} :
    s.assertClaimable selected = .ok () ↔ ∀ o ∈ selected,
      s.assertAuthorityOpen o.partition = .ok () ∧
        s.occurrences.get? o.occurrenceKey = some o := by
  induction selected with
  | nil => simp [assertClaimable]
  | cons o rest ih =>
    simp only [assertClaimable, bind_eq_ok, require_eq_ok, decide_eq_true_eq, ih,
      List.forall_mem_cons]
    constructor
    · rintro ⟨⟨⟩, hopen, ⟨⟩, hget, hrest⟩
      exact ⟨⟨hopen, hget⟩, hrest⟩
    · rintro ⟨⟨hopen, hget⟩, hrest⟩
      exact ⟨(), hopen, (), hget, hrest⟩

/-- What a method that settles or claims occurrences writes: it touches open ones only. -/
structure Touches (ctx : ScheduleContext) (s s' : InMemoryScheduleStore) : Prop where
  occurrences : ∀ k, (s.occurrences.get? k = none → s'.occurrences.get? k = none) ∧
    ∀ o, s.occurrences.get? k = some o → s'.occurrences.get? k = some o ∨
      ∃ o', s'.occurrences.get? k = some o' ∧ o.Touched o' ∧
        s.assertAuthorityOpen o.partition = .ok () ∧
          (o'.status = .pending → o.status = .pending)
  schedules : s'.schedules = s.schedules
  retirements : s'.retirements = s.retirements
  retirementIds : s'.retirementIds = s.retirementIds
  clocks : s'.clocks = s.clocks
  nextScheduleKey : s'.nextScheduleKey = s.nextScheduleKey
  nextOccurrenceKey : s'.nextOccurrenceKey = s.nextOccurrenceKey

theorem Touches.refl (s : InMemoryScheduleStore) : Touches ctx s s :=
  ⟨fun _ => ⟨id, fun _ => Or.inl⟩, rfl, rfl, rfl, rfl, rfl, rfl⟩

/-- An occurrence of the new store was there before. -/
theorem Touches.of_get? (h : Touches ctx s s') {k : Nat} {o' : ScheduledOccurrenceRecord}
    (ho' : s'.occurrences.get? k = some o') : ∃ o, s.occurrences.get? k = some o ∧
      (o' = o ∨ o.Touched o' ∧ s.assertAuthorityOpen o.partition = .ok () ∧
        (o'.status = .pending → o.status = .pending)) := by
  cases ho : s.occurrences.get? k with
  | none =>
    rw [(h.occurrences k).1 ho] at ho'
    cases ho'
  | some o =>
    refine ⟨o, rfl, ?_⟩
    rcases (h.occurrences k).2 o ho with hsame | ⟨o'', ho'', htouched⟩
    · rw [ho', Option.some.injEq] at hsame
      exact Or.inl hsame
    · rw [ho', Option.some.injEq] at ho''
      exact Or.inr (ho'' ▸ htouched)

/-- Touching one open occurrence. -/
theorem Touches.one {o o' : ScheduledOccurrenceRecord} {leases : OrderedMap Nat OccurrenceLease}
    {completedLeaseTokens : OrderedMap Nat String} {k : Nat}
    (ho : s.occurrences.get? k = some o) (htouched : o.Touched o')
    (hopen : s.assertAuthorityOpen o.partition = .ok ())
    (hpending : o'.status = .pending → o.status = .pending) :
    Touches ctx s { s with
      occurrences := s.occurrences.set k o'
      leases := leases
      completedLeaseTokens := completedLeaseTokens } := by
  refine ⟨fun j => ⟨fun hnone => ?_, fun q hq => ?_⟩, rfl, rfl, rfl, rfl, rfl, rfl⟩
  · have hne : k ≠ j := by
      rintro rfl
      rw [ho] at hnone
      cases hnone
    exact (OrderedMap.get?_set_of_ne _ hne _).trans hnone
  · by_cases hk : k = j
    · subst hk
      rw [ho, Option.some.injEq] at hq
      subst hq
      exact Or.inr ⟨o', OrderedMap.get?_set_self .., htouched, hopen, hpending⟩
    · exact Or.inl ((OrderedMap.get?_set_of_ne _ hk _).trans hq)

theorem commitClaim_spec {claim : ScheduleOccurrenceClaimRequest}
    {selected : List ScheduledOccurrenceRecord} {deliveries r : List ScheduledOccurrenceDelivery}
    (hdeliveries : List.Forall₂ (fun record delivery =>
      ∃ token, claimDelivery ctx claim record token = .ok delivery) selected deliveries)
    (h : s.commitClaim selected deliveries = .ok (r, s')) : Touches ctx s s' := by
  simp only [commitClaim, bind_eq_ok] at h
  obtain ⟨⟨⟩, hclaim, h⟩ := h
  have hclaimable := assertClaimable_eq_ok_iff.1 hclaim
  have hresult := return_eq_ok.1 h
  rw [Prod.mk.injEq] at hresult
  obtain ⟨rfl, rfl⟩ := hresult
  have hwritten : ∀ o' ∈ r.map (fun delivery => delivery.occurrence), ∃ o,
      s.occurrences.get? o'.occurrenceKey = some o ∧ o.Touched o' ∧
        s.assertAuthorityOpen o.partition = .ok () ∧ o'.status = o.status := by
    intro o' ho'
    obtain ⟨delivery, hdelivery, rfl⟩ := List.mem_map.1 ho'
    obtain ⟨o, ho, token, hclaim⟩ := exists_left_of_forall₂ hdeliveries hdelivery
    obtain ⟨htouched, hstatus⟩ := claimDelivery_spec hclaim
    obtain ⟨hopen, hget⟩ := hclaimable o ho
    exact ⟨o, htouched.occurrenceKey ▸ hget, htouched, hopen, hstatus⟩
  refine ⟨fun k => ⟨fun hnone => ?_, fun o ho => ?_⟩, rfl, rfl, rfl, rfl, rfl, rfl⟩
  · refine (OrderedMap.get?_foldl_set_of_not_mem fun hmem => ?_).trans hnone
    obtain ⟨o', ho', rfl⟩ := List.mem_map.1 hmem
    obtain ⟨o, ho, -⟩ := hwritten o' ho'
    rw [hnone] at ho
    cases ho
  · by_cases hmem : k ∈ (r.map fun delivery => delivery.occurrence).map fun o => o.occurrenceKey
    · cases hget : (setOccurrences s.occurrences
          (r.map fun delivery => delivery.occurrence)).get? k with
      | none =>
        have hkeys : k ∈ (setOccurrences s.occurrences
            (r.map fun delivery => delivery.occurrence)).keys :=
          OrderedMap.mem_keys_foldl_set (Or.inr hmem)
        exact absurd hkeys (OrderedMap.get?_eq_none_iff.1 hget)
      | some o' =>
        rcases OrderedMap.get?_foldl_set hget with ⟨x, hx, hxk, rfl⟩ | ⟨hnot, -⟩
        · obtain ⟨q, hq, htouched, hopen, hstatus⟩ := hwritten x hx
          rw [hxk, ho, Option.some.injEq] at hq
          subst hq
          exact Or.inr ⟨x, rfl, htouched, hopen, fun hp => hstatus ▸ hp⟩
        · exact absurd hmem hnot
    · exact Or.inl ((OrderedMap.get?_foldl_set_of_not_mem hmem).trans ho)

theorem findOccurrence_eq_ok {key : ScheduledOccurrenceSequenceKey}
    {o : ScheduledOccurrenceRecord} (h : s.findOccurrence key = .ok o) :
    s.occurrences.get? key.occurrenceKey = some o := by
  unfold findOccurrence at h
  cases hget : s.occurrences.get? key.occurrenceKey with
  | none =>
    rw [hget] at h
    cases h
  | some current =>
    simp only [hget] at h
    split at h
    · cases h
      rfl
    · cases h

theorem completeOccurrence_spec {key : ScheduledOccurrenceSequenceKey}
    {leaseToken recordedAt : String} {r : ScheduledOccurrenceRecord} (hs : s.Sound ctx)
    (h : s.completeOccurrence ctx key leaseToken recordedAt = .ok (r, s')) : Touches ctx s s' := by
  simp only [completeOccurrence, bind_eq_ok] at h
  obtain ⟨key', -, _, -, current, hcurrent, h⟩ := h
  have hget := findOccurrence_eq_ok hcurrent
  split at h
  · simp only [bind_eq_ok] at h
    obtain ⟨_, -, h⟩ := h
    have hresult := return_eq_ok.1 h
    rw [Prod.mk.injEq] at hresult
    rw [hresult.2]
    exact .refl s
  · simp only [bind_eq_ok, incrementScheduleDecimal_eq_ok_iff ctx.maxCounterDigits_pos] at h
    obtain ⟨⟨⟩, hopen, _, -, completedAt, hcompletedAt, revision, ⟨hrevision, -⟩, h⟩ := h
    have hresult := return_eq_ok.1 h
    rw [Prod.mk.injEq] at hresult
    obtain ⟨-, rfl⟩ := hresult
    rw [← (hs.occurrence _ _ hget).1] at hget
    exact .one hget ⟨rfl, rfl, hrevision, laterScheduleTimestamp_eq_ok hcompletedAt⟩ hopen nofun

theorem abandonOccurrence_spec {key : ScheduledOccurrenceSequenceKey}
    {leaseToken recordedAt : String} {r : ScheduledOccurrenceRecord} (hs : s.Sound ctx)
    (h : s.abandonOccurrence ctx key leaseToken recordedAt = .ok (r, s')) : Touches ctx s s' := by
  simp only [abandonOccurrence, bind_eq_ok,
    incrementScheduleDecimal_eq_ok_iff ctx.maxCounterDigits_pos] at h
  obtain ⟨key', -, _, -, current, hcurrent, ⟨⟩, hopen, _, -, revision, ⟨hrevision, -⟩, updatedAt,
    hupdatedAt, h⟩ := h
  have hget := findOccurrence_eq_ok hcurrent
  have hresult := return_eq_ok.1 h
  rw [Prod.mk.injEq] at hresult
  obtain ⟨-, rfl⟩ := hresult
  rw [← (hs.occurrence _ _ hget).1] at hget
  exact .one hget ⟨rfl, rfl, hrevision, laterScheduleTimestamp_eq_ok hupdatedAt⟩ hopen id

/-! ## Purging -/

/-- What a purge writes: it drops what it likes of the terminal records. -/
structure Purges (s s' : InMemoryScheduleStore) : Prop where
  occurrences : ∃ p : Nat → Bool, s'.occurrences = s.occurrences.filterKeys p ∧
    ∀ k o, s.occurrences.get? k = some o → o.status = .pending → p k = true
  schedules : ∃ p : GameScheduleKey → Bool, s'.schedules = s.schedules.filterKeys p ∧
    ∀ k r, s.schedules.get? k = some r → r.status = .active → p k = true
  retirements : s'.retirements = s.retirements
  retirementIds : s'.retirementIds = s.retirementIds
  clocks : s'.clocks = s.clocks
  nextScheduleKey : s'.nextScheduleKey = s.nextScheduleKey
  nextOccurrenceKey : s'.nextOccurrenceKey = s.nextOccurrenceKey

theorem filterKeys_true {κ α : Type} [DecidableEq κ] (m : OrderedMap κ α) :
    m.filterKeys (fun _ => true) = m :=
  OrderedMap.ext (List.filter_true _)

theorem purgeTerminalOccurrences_spec {generation : ScheduleGeneration}
    {beforeRecordedAt : String} {limit : Nat} {r : List Nat} (hs : s.Sound ctx)
    (h : s.purgeTerminalOccurrences ctx generation beforeRecordedAt limit = .ok (r, s')) :
    Purges s s' := by
  simp only [purgeTerminalOccurrences, bind_eq_ok] at h
  obtain ⟨_, -, h⟩ := h
  have hresult := return_eq_ok.1 h
  rw [Prod.mk.injEq] at hresult
  obtain ⟨-, rfl⟩ := hresult
  refine ⟨⟨fun key => key ∉ (s.purgeableOccurrences generation beforeRecordedAt limit).map
      fun record => record.occurrenceKey, rfl, fun k o ho hpending => ?_⟩,
    ⟨fun _ => true, (filterKeys_true _).symm, fun _ _ _ _ => rfl⟩, rfl, rfl, rfl, rfl, rfl⟩
  rw [decide_eq_true_eq, List.mem_map]
  rintro ⟨q, hq, hqk⟩
  have hin := (List.mem_insertionSort _).1 (List.mem_of_mem_take hq)
  rw [List.mem_filter, OrderedMap.mem_values] at hin
  obtain ⟨⟨j, hj⟩, hfilter⟩ := hin
  have hkey := (hs.occurrence j q hj).1
  rw [← hkey, hqk, ho, Option.some.injEq] at hj
  rw [← hj, hpending] at hfilter
  simp at hfilter

theorem purgeTerminalSchedules_spec {generation : ScheduleGeneration} {beforeRecordedAt : String}
    {limit : Nat} {r : List Nat}
    (h : s.purgeTerminalSchedules ctx generation beforeRecordedAt limit = .ok (r, s')) :
    Purges s s' := by
  simp only [purgeTerminalSchedules, bind_eq_ok] at h
  obtain ⟨_, -, h⟩ := h
  have hresult := return_eq_ok.1 h
  rw [Prod.mk.injEq] at hresult
  obtain ⟨-, rfl⟩ := hresult
  refine ⟨⟨fun _ => true, (filterKeys_true _).symm, fun _ _ _ _ => rfl⟩,
    ⟨fun key => key ∉ (s.purgeableSchedules generation beforeRecordedAt limit).map Prod.fst, rfl,
      fun k q hq hactive => ?_⟩, rfl, rfl, rfl, rfl, rfl⟩
  rw [decide_eq_true_eq, List.mem_map]
  rintro ⟨entry, hentry, hk⟩
  have hin := (List.mem_insertionSort _).1 (List.mem_of_mem_take hentry)
  rw [List.mem_filter] at hin
  have hget := OrderedMap.get?_eq_some_iff.2 hin.1
  rw [hk, hq, Option.some.injEq] at hget
  have hfilter := hin.2
  rw [← hget, hactive] at hfilter
  simp at hfilter

theorem purgeAdvances_spec {generation : ScheduleGeneration} {beforeRecordedAt : String}
    {limit : Nat} {r : List Nat}
    (h : s.purgeAdvances ctx generation beforeRecordedAt limit = .ok (r, s')) : Purges s s' := by
  simp only [purgeAdvances, bind_eq_ok] at h
  obtain ⟨_, -, h⟩ := h
  have hresult := return_eq_ok.1 h
  rw [Prod.mk.injEq] at hresult
  obtain ⟨-, rfl⟩ := hresult
  exact ⟨⟨fun _ => true, (filterKeys_true _).symm, fun _ _ _ _ => rfl⟩,
    ⟨fun _ => true, (filterKeys_true _).symm, fun _ _ _ _ => rfl⟩, rfl, rfl, rfl, rfl, rfl⟩

theorem Purges.schedule_of_get? (h : Purges s s') {k : GameScheduleKey} {r : GameScheduleRecord}
    (hr : s'.schedules.get? k = some r) : s.schedules.get? k = some r := by
  obtain ⟨p, hp, -⟩ := h.schedules
  rw [hp, OrderedMap.get?_filterKeys_eq_some] at hr
  exact hr.2

theorem Purges.occurrence_of_get? (h : Purges s s') {k : Nat} {o : ScheduledOccurrenceRecord}
    (ho : s'.occurrences.get? k = some o) : s.occurrences.get? k = some o := by
  obtain ⟨p, hp, -⟩ := h.occurrences
  rw [hp, OrderedMap.get?_filterKeys_eq_some] at ho
  exact ho.2

/-! ## Steps and runs -/

theorem Touches.sound (h : Touches ctx s s') (hs : s.Sound ctx) : s'.Sound ctx := by
  refine hs.of_schedules h.nextScheduleKey.ge h.clocks ?_ ?_
  · intro k o' ho'
    obtain ⟨o, ho, rfl | ⟨htouched, -, -⟩⟩ := h.of_get? ho'
    · exact h.nextOccurrenceKey ▸ hs.occurrences ho
    · exact ⟨htouched.occurrenceKey.trans (hs.occurrence k o ho).1, htouched.updatedAt,
        h.nextOccurrenceKey ▸ hs.freshOccurrence k o ho⟩
  · intro k r hr
    rw [h.schedules] at hr
    exact ⟨r, hr, rfl, hs.schedule k r hr, fun R hR => ⟨hR, rfl⟩⟩

theorem Purges.sound (h : Purges s s') (hs : s.Sound ctx) : s'.Sound ctx := by
  refine hs.of_schedules h.nextScheduleKey.ge h.clocks ?_ ?_
  · intro k o ho
    exact h.nextOccurrenceKey ▸ hs.occurrences (h.occurrence_of_get? ho)
  · intro k r hr
    have hr' := h.schedule_of_get? hr
    exact ⟨r, hr', rfl, hs.schedule k r hr', fun R hR => ⟨hR, rfl⟩⟩

theorem cancelSchedule_sound {key : GameScheduleKey} {expectedRevision recordedAt : String}
    {r' : GameScheduleRecord} (hs : s.Sound ctx)
    (h : s.cancelSchedule ctx key expectedRevision recordedAt = .ok (r', s')) : s'.Sound ctx := by
  obtain ⟨r, hr, -, -, hcancelled, rfl⟩ := cancelSchedule_spec h
  refine hs.of_schedules le_rfl rfl (fun k o ho => hs.occurrences ho) fun k q hq => ?_
  by_cases hk : key = k
  · subst hk
    rw [OrderedMap.get?_set_self, Option.some.injEq] at hq
    subst hq
    refine ⟨r, hr, hcancelled.scheduleKey, hcancelled.sound (hs.schedule key r hr), ?_⟩
    intro R hR
    rw [hcancelled.recurrence] at hR
    cases hR
  · rw [OrderedMap.get?_set_of_ne _ hk] at hq
    exact ⟨q, hq, rfl, hs.schedule k q hq, fun R hR => ⟨hR, rfl⟩⟩

section Advance

variable {plan : AdvancePlan} {result : ScheduleAdvanceResult}

/-- A schedule after an advance is one of the generation, advanced, or was not touched. -/
theorem AdvanceWrites.of_get? (h : AdvanceWrites ctx s plan result s') (hs : s.Sound ctx)
    {k : GameScheduleKey} {r' : GameScheduleRecord} (hr' : s'.schedules.get? k = some r') :
    (∃ r ∈ plan.active, s.schedules.get? k = some r ∧
        r.Advanced plan.advance.toInclusive.tick.value r') ∨
      (s.schedules.get? k = some r' ∧ r' ∉ plan.active) := by
  by_cases hactive : ∃ r ∈ plan.active, r.key = k
  · obtain ⟨r, hr, rfl⟩ := hactive
    obtain ⟨q, hq, hadv⟩ := h.advanced r hr
    rw [hr', Option.some.injEq] at hq
    exact Or.inl ⟨r, hr, (hs.active (h.active ▸ hr)).1, hq ▸ hadv⟩
  · have hnone : ∀ r ∈ plan.active, r.key ≠ k := fun r hr hc => hactive ⟨r, hr, hc⟩
    have hget := (h.others k hnone).symm.trans hr'
    exact Or.inr ⟨hget, fun hmem => hnone r' hmem (hs.schedule k r' hget).key⟩

/-- The occurrences an advance makes are new. -/
theorem AdvanceWrites.occurrence_of_get? (h : AdvanceWrites ctx s plan result s') {k : Nat}
    {o : ScheduledOccurrenceRecord} (ho : s'.occurrences.get? k = some o) :
    (o ∈ result.occurrences ∧ o.occurrenceKey = k) ∨ s.occurrences.get? k = some o := by
  rw [h.occurrences] at ho
  rcases OrderedMap.get?_foldl_set ho with ⟨x, hx, hxk, rfl⟩ | ⟨-, hget⟩
  · exact Or.inl ⟨hx, hxk⟩
  · exact Or.inr hget

theorem AdvanceWrites.sound (h : AdvanceWrites ctx s plan result s') (hs : s.Sound ctx)
    (htimes : ∀ o ∈ result.occurrences, isCanonicalTimestamp o.updatedAt = true) :
    s'.Sound ctx := by
  have hold : ∀ k r', s'.schedules.get? k = some r' →
      ∃ r, s.schedules.get? k = some r ∧ r'.scheduleKey = r.scheduleKey := by
    intro k r' hr'
    rcases h.of_get? hs hr' with ⟨r, -, hr, hadv⟩ | ⟨hr, -⟩
    · exact ⟨r, hr, hadv.scheduleKey⟩
    · exact ⟨r', hr, rfl⟩
  refine ⟨?_, ?_, ?_, ?_, ?_, ?_⟩
  · intro k r' hr'
    rcases h.of_get? hs hr' with ⟨r, -, hr, hadv⟩ | ⟨hr, -⟩
    · exact hadv.sound (hs.schedule k r hr)
    · exact hs.schedule k r' hr
  · intro k r' hr'
    obtain ⟨r, hr, hkey⟩ := hold k r' hr'
    rw [hkey, h.nextScheduleKey]
    exact hs.fresh k r hr
  · intro k j r' q' hr' hq' heq
    obtain ⟨r, hr, hkey⟩ := hold k r' hr'
    obtain ⟨q, hq, hkey'⟩ := hold j q' hq'
    exact hs.distinct k j r q hr hq (hkey.symm.trans (heq.trans hkey'))
  · intro k r' R' t hr' hR' ht
    rw [h.clocks] at ht
    rcases h.of_get? hs hr' with ⟨r, hr, hget, hadv⟩ | ⟨hget, hnot⟩
    · -- an advanced schedule has the rest of its recurrence to come
      obtain ⟨-, hgeneration, R, hR, hlive⟩ := hs.active (h.active ▸ hr)
      rw [hadv.draft, hgeneration, OrderedMap.get?_set_self, Option.some.injEq] at ht
      have hrest := hadv.recurrence
      rw [hR, Option.bind_some, hR'] at hrest
      exact ht ▸ Recurrence.next_lt_of_advance hlive hrest.symm
    · -- a schedule that was not advanced belongs to another generation
      by_cases hgeneration : plan.advance.partition = r'.partition.toScheduleGeneration
      · refine absurd ?_ hnot
        rw [← h.active]
        exact mem_activeSchedules.2
          ⟨⟨k, hget⟩, (recurrence_eq_some hR').1, hgeneration.symm⟩
      · rw [OrderedMap.get?_set_of_ne _ hgeneration] at ht
        exact hs.clock k r' R' t hget hR' ht
  · intro k o ho
    rcases h.occurrence_of_get? ho with ⟨hin, hk⟩ | hget
    · exact ⟨hk, htimes o hin⟩
    · exact hs.occurrence k o hget
  · intro k o ho
    rw [h.nextOccurrenceKey]
    rcases h.occurrence_of_get? ho with ⟨hin, hk⟩ | hget
    · have hmem : k ∈ result.occurrences.map fun o => o.occurrenceKey :=
        List.mem_map.2 ⟨o, hin, hk⟩
      rw [h.keys, List.mem_range'_1] at hmem
      exact hmem.2
    · exact (hs.freshOccurrence k o hget).trans_le (Nat.le_add_right _ _)

end Advance

/-- The occurrences of a loop carry the time of the advance. -/
theorem LoopRuns.updatedAt {plan : AdvancePlan} {loop : AdvanceLoop ctx}
    {popped : List AdvanceCursor} (h : LoopRuns plan (plan.start ctx) popped loop)
    {o : ScheduledOccurrenceRecord} (ho : o ∈ loop.generated) :
    o.updatedAt = plan.advance.recordedAt := by
  obtain ⟨made, hmade, hall, -⟩ := h.generated
  rw [AdvancePlan.start, List.nil_append] at hmade
  rw [hmade] at ho
  obtain ⟨c, -, ordinal, occurrenceKey, signalId, -, rfl⟩ := exists_left_of_forall₂ hall ho
  rfl

/-- Every write keeps a store sound. -/
theorem ScheduleStep.sound (h : ScheduleStep ctx s s') (hs : s.Sound ctx) : s'.Sound ctx := by
  cases h with
  | create h =>
    rcases create_spec h with rfl | ⟨schedule, hcreates⟩
    · exact hs
    · exact hcreates.sound hs
  | retire h =>
    obtain ⟨request, -, ⟨-, -, -, rfl⟩ | hretires⟩ := retireAuthority_spec hs h
    · exact hs
    · exact hretires.sound hs
  | cancel h => exact cancelSchedule_sound hs h
  | advance hready h =>
    obtain ⟨hwrites, hgenerated⟩ := commitAdvance_spec hs hready h
    obtain ⟨popped, hruns⟩ := hready.runs
    refine hwrites.sound hs fun o ho => ?_
    rw [hgenerated] at ho
    rw [hruns.updatedAt ho]
    exact hready.accepted.recordedAt
  | claim hdeliveries h => exact (commitClaim_spec hdeliveries h).sound hs
  | complete h => exact (completeOccurrence_spec hs h).sound hs
  | abandon h => exact (abandonOccurrence_spec hs h).sound hs
  | purgeOccurrences h => exact (purgeTerminalOccurrences_spec hs h).sound hs
  | purgeSchedules h => exact (purgeTerminalSchedules_spec h).sound hs
  | purgeAdvances h => exact (purgeAdvances_spec h).sound hs

theorem SchedulePath.sound (h : SchedulePath ctx s s') (hs : s.Sound ctx) : s'.Sound ctx := by
  induction h with
  | refl => exact hs
  | tail _ hstep ih => exact hstep.sound ih

/-- Every run keeps a store sound. -/
theorem ScheduleRun.sound (h : ScheduleRun ctx s s') (hs : s.Sound ctx) : s'.Sound ctx :=
  h.path.sound hs

end OpenGameAgent
