import OpenGameAgent.Extensions.ScheduleRuns

/-!
# What holds of every schedule store

* `InMemoryScheduleStore.Sound` — records lie under their keys, every active schedule has
  a live recurrence, and what it has to come lies behind the clock of its generation.
* `commitAdvance_spec` — what an advance writes.
* `ScheduleStep.sound`, `ScheduleRun.sound` — every write keeps a store sound, so every
  run does.
-/

namespace OpenGameAgent

open InMemoryScheduleStore

variable {ctx : ScheduleContext}

/-! ## Sound stores -/

/-- What holds of the schedule stored under a key. -/
structure GameScheduleRecord.Sound (ctx : ScheduleContext) (k : GameScheduleKey)
    (r : GameScheduleRecord) : Prop where
  key : r.key = k
  accepted : r.toGameScheduleDraft.Accepted ctx.limits
  updatedAt : isCanonicalTimestamp r.updatedAt = true
  live : r.status = .active → ∃ R, r.recurrence = some R ∧ R.Live
  idle : r.status ≠ .active → r.nextDueTick = none

structure InMemoryScheduleStore.Sound (ctx : ScheduleContext) (s : InMemoryScheduleStore) :
    Prop where
  schedule : ∀ k r, s.schedules.get? k = some r → r.Sound ctx k
  fresh : ∀ k r, s.schedules.get? k = some r → r.scheduleKey < s.nextScheduleKey
  distinct : ∀ k j r q, s.schedules.get? k = some r → s.schedules.get? j = some q →
    r.scheduleKey = q.scheduleKey → k = j
  clock : ∀ k r R t, s.schedules.get? k = some r → r.recurrence = some R →
    s.clocks.get? r.partition.toScheduleGeneration = some t → t.value < R.next
  occurrence : ∀ k o, s.occurrences.get? k = some o →
    o.occurrenceKey = k ∧ isCanonicalTimestamp o.updatedAt = true
  freshOccurrence : ∀ k o, s.occurrences.get? k = some o → k < s.nextOccurrenceKey

theorem empty_sound : InMemoryScheduleStore.empty.Sound ctx where
  schedule _ _ h := by cases h
  fresh _ _ h := by cases h
  distinct _ _ _ _ h := by cases h
  clock _ _ _ _ h := by cases h
  occurrence _ _ h := by cases h
  freshOccurrence _ _ h := by cases h

variable {s s' : InMemoryScheduleStore}

theorem mem_activeSchedules {generation : ScheduleGeneration} {r : GameScheduleRecord} :
    r ∈ s.activeSchedules generation ↔
      (∃ k, s.schedules.get? k = some r) ∧ r.status = .active ∧
        r.partition.toScheduleGeneration = generation := by
  rw [activeSchedules, List.mem_filter, OrderedMap.mem_values]
  simp

theorem InMemoryScheduleStore.Sound.active (h : s.Sound ctx) {generation : ScheduleGeneration}
    {r : GameScheduleRecord} (hr : r ∈ s.activeSchedules generation) :
    s.schedules.get? r.key = some r ∧ r.partition.toScheduleGeneration = generation ∧
      ∃ R, r.recurrence = some R ∧ R.Live := by
  obtain ⟨⟨k, hk⟩, hactive, hgeneration⟩ := mem_activeSchedules.1 hr
  have hsound := h.schedule k r hk
  exact ⟨hsound.key ▸ hk, hgeneration, hsound.live hactive⟩

theorem InMemoryScheduleStore.Sound.distinct_active (h : s.Sound ctx)
    (generation : ScheduleGeneration) :
    ((s.activeSchedules generation).map fun r => r.scheduleKey).Nodup :=
  (OrderedMap.nodup_map_values fun k j r q => h.distinct k j r q).sublist
    (List.filter_sublist.map _)

/-- A key that is used up stays used up, and a schedule keeps its place. -/
theorem InMemoryScheduleStore.Sound.of_schedules (h : s.Sound ctx)
    (hnext : s.nextScheduleKey ≤ s'.nextScheduleKey) (hclocks : s'.clocks = s.clocks)
    (hoccurrences : ∀ k o, s'.occurrences.get? k = some o →
      o.occurrenceKey = k ∧ isCanonicalTimestamp o.updatedAt = true ∧ k < s'.nextOccurrenceKey)
    (hschedules : ∀ k r', s'.schedules.get? k = some r' → ∃ r, s.schedules.get? k = some r ∧
      r'.scheduleKey = r.scheduleKey ∧ r'.Sound ctx k ∧
        ∀ R, r'.recurrence = some R → r.recurrence = some R ∧
          r'.partition.toScheduleGeneration = r.partition.toScheduleGeneration) :
    s'.Sound ctx where
  schedule k r' hr' := by
    obtain ⟨r, -, -, hsound, -⟩ := hschedules k r' hr'
    exact hsound
  fresh k r' hr' := by
    obtain ⟨r, hr, hkey, -, -⟩ := hschedules k r' hr'
    exact hkey ▸ (h.fresh k r hr).trans_le hnext
  distinct k j r' q' hr' hq' heq := by
    obtain ⟨r, hr, hkey, -, -⟩ := hschedules k r' hr'
    obtain ⟨q, hq, hkey', -, -⟩ := hschedules j q' hq'
    exact h.distinct k j r q hr hq (hkey.symm.trans (heq.trans hkey'))
  clock k r' R t hr' hR ht := by
    obtain ⟨r, hr, -, -, hrec⟩ := hschedules k r' hr'
    obtain ⟨hR', hgeneration⟩ := hrec R hR
    rw [hclocks, hgeneration] at ht
    exact h.clock k r R t hr hR' ht
  occurrence k o ho := ⟨(hoccurrences k o ho).1, (hoccurrences k o ho).2.1⟩
  freshOccurrence k o ho := (hoccurrences k o ho).2.2

/-- Occurrences that were there before are as they should be. -/
theorem InMemoryScheduleStore.Sound.occurrences (h : s.Sound ctx) {k : Nat}
    {o : ScheduledOccurrenceRecord} (ho : s.occurrences.get? k = some o) :
    o.occurrenceKey = k ∧ isCanonicalTimestamp o.updatedAt = true ∧ k < s.nextOccurrenceKey :=
  ⟨(h.occurrence k o ho).1, (h.occurrence k o ho).2, h.freshOccurrence k o ho⟩

/-! ## Records that are written -/

theorem laterScheduleTimestamp_eq_ok {left right t : String}
    (h : laterScheduleTimestamp left right = .ok t) : isCanonicalTimestamp t = true := by
  simp only [laterScheduleTimestamp, validateScheduleTimestamp, bind_eq_ok, require_eq_ok] at h
  obtain ⟨_, hleft, _, hright, h⟩ := h
  obtain rfl := return_eq_ok.1 h
  split
  · exact hright
  · exact hleft

/-- What becomes of a schedule that is cancelled. -/
structure GameScheduleRecord.Cancelled (r r' : GameScheduleRecord) : Prop where
  draft : r'.toGameScheduleDraft = r.toGameScheduleDraft
  scheduleKey : r'.scheduleKey = r.scheduleKey
  occurrences : r'.occurrences = r.occurrences
  status : r'.status = .cancelled
  nextDueTick : r'.nextDueTick = none
  revision : r'.revision.value = r.revision.value + 1
  updatedAt : isCanonicalTimestamp r'.updatedAt = true

theorem cancelRecord_spec {r r' : GameScheduleRecord} {recordedAt : String}
    (h : cancelRecord ctx r recordedAt = .ok r') : r.Cancelled r' := by
  simp only [cancelRecord, bind_eq_ok,
    incrementScheduleDecimal_eq_ok_iff ctx.maxCounterDigits_pos] at h
  obtain ⟨revision, ⟨hrevision, -⟩, updatedAt, hupdatedAt, h⟩ := h
  obtain rfl := return_eq_ok.1 h
  exact ⟨rfl, rfl, rfl, rfl, rfl, hrevision, laterScheduleTimestamp_eq_ok hupdatedAt⟩

theorem GameScheduleRecord.Cancelled.sound {r r' : GameScheduleRecord} {k : GameScheduleKey}
    (h : r.Cancelled r') (hr : r.Sound ctx k) : r'.Sound ctx k := by
  refine ⟨?_, h.draft ▸ hr.accepted, h.updatedAt, ?_, fun _ => h.nextDueTick⟩
  · rw [h.draft]
    exact hr.key
  · intro hactive
    rw [h.status] at hactive
    cases hactive

theorem GameScheduleRecord.Cancelled.recurrence {r r' : GameScheduleRecord}
    (h : r.Cancelled r') : r'.recurrence = none := by
  rw [GameScheduleRecord.recurrence, h.status, if_neg (by decide)]

/-- What becomes of an occurrence that is cancelled. -/
structure ScheduledOccurrenceRecord.Cancelled (o o' : ScheduledOccurrenceRecord) : Prop where
  occurrenceKey : o'.occurrenceKey = o.occurrenceKey
  partition : o'.partition = o.partition
  status : o'.status = .cancelled
  updatedAt : isCanonicalTimestamp o'.updatedAt = true
  rest : o' = { o with
    status := .cancelled
    revision := o'.revision
    updatedAt := o'.updatedAt
    cancelledAt := o'.cancelledAt }

theorem cancelOccurrence_spec {o o' : ScheduledOccurrenceRecord} {recordedAt : String}
    (h : cancelOccurrence ctx o recordedAt = .ok o') : o.Cancelled o' := by
  simp only [cancelOccurrence, bind_eq_ok] at h
  obtain ⟨cancelledAt, hcancelledAt, revision, -, h⟩ := h
  obtain rfl := return_eq_ok.1 h
  exact ⟨rfl, rfl, rfl, laterScheduleTimestamp_eq_ok hcancelledAt, rfl⟩

/-- What becomes of an active schedule when its clock moves to a tick. -/
structure GameScheduleRecord.Advanced (upto : Nat) (r r' : GameScheduleRecord) : Prop where
  draft : r'.toGameScheduleDraft = r.toGameScheduleDraft
  scheduleKey : r'.scheduleKey = r.scheduleKey
  createdAt : r'.createdAt = r.createdAt
  recurrence : r'.recurrence = r.recurrence.bind fun R => R.advance upto
  occurrences : r'.occurrences.value =
    r.occurrences.value + (r.recurrence.map fun R => R.dueCount upto).getD 0
  status : r'.status = if r'.recurrence.isSome then .active else .completed
  idle : r'.status ≠ .active → r'.nextDueTick = none
  updatedAt : isCanonicalTimestamp r.updatedAt = true → isCanonicalTimestamp r'.updatedAt = true

/-- A schedule that is not due is as it was. -/
theorem GameScheduleRecord.Advanced.rfl_of_not_due {r : GameScheduleRecord} {R : Recurrence}
    (hR : r.recurrence = some R) (hlive : R.Live) {upto : Nat} (hdue : R.dueCount upto = 0) :
    r.Advanced upto r := by
  have hactive := (recurrence_eq_some hR).1
  refine ⟨rfl, rfl, rfl, ?_, ?_, ?_, fun h => absurd hactive h, id⟩
  · rw [hR, Option.bind_some, eq_comm, Recurrence.advance_eq_some_iff, hdue,
      Recurrence.after_zero]
    exact ⟨fun hb => absurd (hlive.room _ hb) (lt_irrefl _), rfl⟩
  · rw [hR, Option.map_some, Option.getD_some, hdue, Nat.add_zero]
  · rw [hR, Option.isSome_some, if_pos rfl, hactive]

theorem GameScheduleRecord.Advanced.sound {upto : Nat} {r r' : GameScheduleRecord}
    {k : GameScheduleKey} (h : r.Advanced upto r') (hr : r.Sound ctx k) : r'.Sound ctx k := by
  refine ⟨?_, h.draft ▸ hr.accepted, h.updatedAt hr.updatedAt, ?_, h.idle⟩
  · rw [h.draft]
    exact hr.key
  · intro hactive
    have hstatus := h.status
    rw [hactive] at hstatus
    cases hrec : r'.recurrence with
    | none =>
      rw [hrec] at hstatus
      cases hstatus
    | some R' =>
      have hadv := h.recurrence
      rw [hrec] at hadv
      cases hR : r.recurrence with
      | none =>
        rw [hR] at hadv
        cases hadv
      | some R =>
        rw [hR, Option.bind_some] at hadv
        obtain ⟨Q, hQ, hlive⟩ := hr.live (recurrence_eq_some hR).1
        rw [hR] at hQ
        cases hQ
        exact ⟨R', rfl, Recurrence.live_advance hlive hadv.symm⟩

/-! ## What an advance writes -/

/-- The record a cursor leaves behind. -/
theorem scheduleUpdate_spec {plan : AdvancePlan} {r r' : GameScheduleRecord} {R : Recurrence}
    {v : AdvanceCursor} (hR : r.recurrence = some R) (hv : EndsAt plan r R v)
    (h : s.scheduleUpdate ctx plan v = .ok r') :
    r.Advanced plan.advance.toInclusive.tick.value r' ∧ s.assertAuthorityOpen r.partition = .ok () ∧
      s.schedules.get? r.key = some r ∧ r'.revision.value = r.revision.value + 1 ∧
      r.revision.value + 1 < 10 ^ ctx.limits.maxCounterDigits := by
  obtain ⟨-, next, -, hRe⟩ := recurrence_eq_some hR
  simp only [scheduleUpdate, bind_eq_ok, require_eq_ok, decide_eq_true_eq,
    incrementScheduleDecimal_eq_ok_iff ctx.maxCounterDigits_pos] at h
  obtain ⟨⟨⟩, hopen, _, hget, revision, ⟨hrevision, hdigits⟩, updatedAt, hupdatedAt, h⟩ := h
  obtain rfl := return_eq_ok.1 h
  obtain rfl := hv.schedule
  refine ⟨⟨rfl, rfl, rfl, ?_, ?_, ?_, ?_, fun _ => laterScheduleTimestamp_eq_ok hupdatedAt⟩,
    hopen, hget, hrevision, hdigits⟩
  · rw [hR, Option.bind_some]
    cases hcompleted : v.completed with
    | true =>
      rw [hv.completed.1 hcompleted, GameScheduleRecord.recurrence]
      simp
    | false =>
      rw [hv.rest hcompleted, GameScheduleRecord.recurrence]
      simp [AdvanceCursor.recurrence]
  · rw [hR, Option.map_some, Option.getD_some]
    have hordinal := hv.ordinal
    rw [hRe] at hordinal ⊢
    exact hordinal
  · cases hcompleted : v.completed <;> simp [GameScheduleRecord.recurrence]
  · intro hne
    cases hcompleted : v.completed with
    | true => simp
    | false =>
      rw [hcompleted] at hne
      exact absurd rfl hne

/-- What an advance leaves, at the store it was committed to. -/
structure AdvanceWrites (ctx : ScheduleContext) (s : InMemoryScheduleStore) (plan : AdvancePlan)
    (result : ScheduleAdvanceResult) (s' : InMemoryScheduleStore) : Prop where
  active : s.activeSchedules plan.advance.partition = plan.active
  clock : s.clocks.get? plan.advance.partition = plan.clock
  firstOccurrenceKey : s.nextOccurrenceKey = plan.firstOccurrenceKey
  advanced : ∀ r ∈ plan.active, ∃ r', s'.schedules.get? r.key = some r' ∧
    r.Advanced plan.advance.toInclusive.tick.value r'
  others : ∀ k, (∀ r ∈ plan.active, r.key ≠ k) → s'.schedules.get? k = s.schedules.get? k
  opened : ∀ r ∈ plan.active, ∀ R, r.recurrence = some R →
    0 < R.dueCount plan.advance.toInclusive.tick.value → s.assertAuthorityOpen r.partition = .ok ()
  clocks : s'.clocks = s.clocks.set plan.advance.partition plan.advance.toInclusive.tick
  occurrences : s'.occurrences = setOccurrences s.occurrences result.occurrences
  nextOccurrenceKey : s'.nextOccurrenceKey = s.nextOccurrenceKey + result.occurrences.length
  keys : result.occurrences.map (fun o => o.occurrenceKey) =
    List.range' s.nextOccurrenceKey result.occurrences.length
  nextScheduleKey : s'.nextScheduleKey = s.nextScheduleKey
  leases : s'.leases = s.leases
  retirements : s'.retirements = s.retirements
  retirementIds : s'.retirementIds = s.retirementIds

/-- The schedules of a sound store make a sound plan. -/
theorem plan_sound {plan : AdvancePlan} (hs : s.Sound ctx) {generation : ScheduleGeneration}
    (hactive : s.activeSchedules generation = plan.active) : plan.Sound :=
  ⟨fun _ hr => (hs.active (hactive ▸ hr)).2.2, hactive ▸ hs.distinct_active generation⟩

/-- Schedules of a store under one key are one. -/
theorem InMemoryScheduleStore.Sound.eq_of_key (hs : s.Sound ctx) {generation : ScheduleGeneration}
    {r q : GameScheduleRecord} (hr : r ∈ s.activeSchedules generation)
    (hq : q ∈ s.activeSchedules generation) (h : r.key = q.key) : r = q := by
  have hgr := (hs.active hr).1
  rw [h, (hs.active hq).1, Option.some.injEq] at hgr
  exact hgr.symm

section Commit

variable {plan : AdvancePlan} {loop : AdvanceLoop ctx} {popped : List AdvanceCursor}
  {updates : List GameScheduleRecord}

/-- Each update comes from the cursor a schedule ends with. -/
theorem update_from (hplan : plan.Sound) (hruns : LoopRuns plan (plan.start ctx) popped loop)
    (hupdates : List.Forall₂ (fun v q => s.scheduleUpdate ctx plan v = .ok q)
      loop.finalBySchedule.values updates) {q : GameScheduleRecord} (hq : q ∈ updates) :
    ∃ r ∈ plan.active, ∃ R, r.recurrence = some R ∧
      0 < R.dueCount plan.advance.toInclusive.tick.value ∧ q.key = r.key := by
  obtain ⟨v, hv, hupdate⟩ := exists_left_of_forall₂ hupdates hq
  obtain ⟨k, hk⟩ := OrderedMap.mem_values.1 hv
  obtain ⟨r, hr, -, R, hR, hdue, hends⟩ := hruns.endsAt hplan hk
  refine ⟨r, hr, R, hR, hdue, ?_⟩
  rw [(scheduleUpdate_spec hR hends hupdate).1.draft]

/-- A schedule that is due is updated. -/
theorem update_of_due (hplan : plan.Sound) (hruns : LoopRuns plan (plan.start ctx) popped loop)
    (hupdates : List.Forall₂ (fun v q => s.scheduleUpdate ctx plan v = .ok q)
      loop.finalBySchedule.values updates) {r : GameScheduleRecord} (hr : r ∈ plan.active)
    {R : Recurrence} (hR : r.recurrence = some R) (hlive : R.Live)
    (hdue : 0 < R.dueCount plan.advance.toInclusive.tick.value) :
    ∃ q ∈ updates, r.Advanced plan.advance.toInclusive.tick.value q ∧
      s.assertAuthorityOpen r.partition = .ok () ∧
      r.revision.value + 1 < 10 ^ ctx.limits.maxCounterDigits := by
  obtain ⟨v, hv⟩ := hruns.final_of_due hr hR hlive hdue
  obtain ⟨R', hR', -, hends⟩ := hruns.endsAt_of_get? hplan hr hv
  obtain ⟨q, hq, hupdate⟩ := exists_right_of_forall₂ hupdates (OrderedMap.mem_values.2 ⟨_, hv⟩)
  obtain ⟨hadv, hopen, -, -, hdigits⟩ := scheduleUpdate_spec hR' hends hupdate
  exact ⟨q, hq, hadv, hopen, hdigits⟩

/-- No schedule is updated twice. -/
theorem updates_nodup (hs : s.Sound ctx) {generation : ScheduleGeneration}
    (hactive : s.activeSchedules generation = plan.active)
    (hruns : LoopRuns plan (plan.start ctx) popped loop)
    (hupdates : List.Forall₂ (fun v q => s.scheduleUpdate ctx plan v = .ok q)
      loop.finalBySchedule.values updates) : (updates.map fun q => q.key).Nodup := by
  have hplan := plan_sound hs hactive
  have hcongr : updates.map (fun q => q.key) =
      loop.finalBySchedule.values.map fun v => v.schedule.key := by
    have hall : ∀ v ∈ loop.finalBySchedule.values, ∃ R, EndsAt plan v.schedule R v ∧
        v.schedule.recurrence = some R := by
      intro v hv
      obtain ⟨k, hk⟩ := OrderedMap.mem_values.1 hv
      obtain ⟨r, -, -, R, hR, -, hends⟩ := hruns.endsAt hplan hk
      obtain rfl := hends.schedule
      exact ⟨R, hends, hR⟩
    clear hruns
    generalize loop.finalBySchedule.values = vs at hupdates hall
    induction hupdates with
    | nil => rfl
    | @cons v q vs qs hvq _ ih =>
      obtain ⟨R, hends, hR⟩ := hall v (List.mem_cons_self ..)
      rw [List.map_cons, List.map_cons, ih fun w hw => hall w (List.mem_cons_of_mem _ hw),
        (scheduleUpdate_spec hR hends hvq).1.draft]
  rw [hcongr]
  refine OrderedMap.nodup_map_values fun k j v w hv hw heq => ?_
  obtain ⟨r, hr, hrk, R, -, -, hends⟩ := hruns.endsAt hplan hv
  obtain ⟨q, hq, hqj, Q, -, -, hends'⟩ := hruns.endsAt hplan hw
  rw [hends.schedule, hends'.schedule] at heq
  rw [← hrk, ← hqj, hs.eq_of_key (hactive ▸ hr) (hactive ▸ hq) heq]

theorem commitAdvance_spec {result : ScheduleAdvanceResult} (hs : s.Sound ctx)
    (hready : AdvanceReady ctx plan loop) (h : s.commitAdvance ctx plan loop = .ok (result, s')) :
    AdvanceWrites ctx s plan result s' ∧ result.occurrences = loop.generated := by
  simp only [commitAdvance, bind_eq_ok, require_eq_ok, Bool.and_eq_true, decide_eq_true_eq,
    mapM_eq_ok_iff] at h
  obtain ⟨updates, hupdates, _, hclock, _, ⟨hfirst, hactive⟩, h⟩ := h
  have hresult := return_eq_ok.1 h
  rw [Prod.mk.injEq] at hresult
  obtain ⟨rfl, rfl⟩ := hresult
  obtain ⟨popped, hruns⟩ := hready.runs
  have hplan := plan_sound hs hactive
  obtain ⟨made, hmade, hall, hkeys, hnext⟩ := hruns.generated
  rw [AdvancePlan.start, List.nil_append] at hmade
  have hlen := hall.length_eq
  refine ⟨⟨hactive, hclock, hfirst, ?_, ?_, ?_, rfl, rfl, ?_, ?_, rfl, rfl, rfl, rfl⟩, rfl⟩
  · intro r hr
    obtain ⟨R, hR, hlive⟩ := hplan.live r hr
    rcases Nat.eq_zero_or_pos (R.dueCount plan.advance.toInclusive.tick.value) with hzero | hpos
    · refine ⟨r, ?_, .rfl_of_not_due hR hlive hzero⟩
      dsimp only
      rw [setSchedules, OrderedMap.get?_foldl_set_of_not_mem]
      · exact (hs.active (hactive ▸ hr)).1
      · intro hmem
        obtain ⟨q, hq, hqk⟩ := List.mem_map.1 hmem
        obtain ⟨r', hr', R', hR', hdue, hkey⟩ := update_from hplan hruns hupdates hq
        obtain rfl := hs.eq_of_key (hactive ▸ hr') (hactive ▸ hr) (hkey.symm.trans hqk)
        rw [hR, Option.some.injEq] at hR'
        rw [← hR'] at hdue
        omega
    · obtain ⟨q, hq, hadv, -⟩ := update_of_due hplan hruns hupdates hr hR hlive hpos
      have hget : (setSchedules s.schedules updates).get? q.key = some q :=
        OrderedMap.get?_foldl_set_of_mem (updates_nodup hs hactive hruns hupdates) hq
      have hkey : q.key = r.key := by rw [hadv.draft]
      rw [hkey] at hget
      exact ⟨q, hget, hadv⟩
  · intro k hk
    dsimp only
    rw [setSchedules, OrderedMap.get?_foldl_set_of_not_mem]
    intro hmem
    obtain ⟨q, hq, hqk⟩ := List.mem_map.1 hmem
    obtain ⟨r, hr, -, -, -, hkey⟩ := update_from hplan hruns hupdates hq
    exact hk r hr (hkey.symm.trans hqk)
  · intro r hr R hR hpos
    obtain ⟨R', hR', hlive⟩ := hplan.live r hr
    rw [hR] at hR'
    cases hR'
    obtain ⟨q, -, -, hopen, -⟩ := update_of_due hplan hruns hupdates hr hR hlive hpos
    exact hopen
  · dsimp only
    rw [hnext, hmade, hfirst, ← hlen]
    rfl
  · dsimp only
    rw [hmade, hfirst, ← hlen]
    exact hkeys

end Commit

end OpenGameAgent
