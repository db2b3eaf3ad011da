import OpenGameAgent.Extensions.ScheduleSteps

/-!
# An advance makes exactly the due occurrences

* `Generates` — what an advance `(from, to]` that is new does: the occurrences it makes
  are those of the active schedules up to `to`, in order, and every schedule ends
  completed or with its first tick beyond `to`.
* `advance_generates_due` — every successful advance replays an earlier one or generates;
  and advancing in two steps comes to the same as advancing in one.
-/

namespace OpenGameAgent

open InMemoryScheduleStore

variable {ctx : ScheduleContext} {s s' : InMemoryScheduleStore}

/-! ## The occurrences of a schedule -/

/-- A schedule has the occurrence with an ordinal at a tick, and it is due. -/
def GameScheduleRecord.Occurs (r : GameScheduleRecord) (upto ordinal tick : Nat) : Prop :=
  ∃ next k, r.nextDueTick = some next ∧ (r.intervalTicks = none → k = 0) ∧
    tick = next.value + k * r.step ∧ tick ≤ upto ∧ ordinal = r.occurrences.value + k + 1 ∧
      ∀ maximum, r.maximumOccurrences = some maximum → ordinal ≤ maximum.value

/-- The occurrences of a schedule are those of its recurrence. -/
theorem occurs_iff {r : GameScheduleRecord} {R : Recurrence} (hR : r.recurrence = some R)
    (hlive : R.Live) {upto ordinal tick : Nat} :
    r.Occurs upto ordinal tick ↔
      ∃ k, R.Due upto k ∧ ordinal = R.made + k + 1 ∧ tick = R.next + k * R.step := by
  obtain ⟨-, next, hnext, rfl⟩ := recurrence_eq_some hR
  unfold GameScheduleRecord.Occurs
  simp only [hnext, Option.some.injEq]
  constructor
  · rintro ⟨_, k, rfl, -, rfl, htick, rfl, hmax⟩
    refine ⟨k, ⟨htick, fun b hb => ?_⟩, rfl, rfl⟩
    simp only [GameScheduleDraft.bound, Option.map_eq_some_iff] at hb
    obtain ⟨m, hm, rfl⟩ := hb
    exact hmax m hm
  · rintro ⟨k, hdue, rfl, rfl⟩
    refine ⟨next, k, rfl, fun hnone => ?_, rfl, hdue.tick, rfl, fun m hm => ?_⟩
    · -- a schedule without an interval has one occurrence left
      have hstep : r.step = 0 := by simp [GameScheduleDraft.step, hnone]
      have hbound := hlive.moves.resolve_left (by simp [hstep])
      have hroom : r.occurrences.value + k < r.occurrences.value + 1 := hdue.room _ hbound
      omega
    · exact hdue.room m.value (by simp [GameScheduleDraft.bound, hm])

/-- Where a schedule ends when its clock was moved to a tick. -/
structure GameScheduleRecord.EndsAfter (upto : Nat) (r r' : GameScheduleRecord) : Prop where
  draft : r'.toGameScheduleDraft = r.toGameScheduleDraft
  scheduleKey : r'.scheduleKey = r.scheduleKey
  ordinals : ∀ ordinal, (∃ tick, r.Occurs upto ordinal tick) ↔
    r.occurrences.value < ordinal ∧ ordinal ≤ r'.occurrences.value
  ends : (r'.status = .completed ∧ r'.nextDueTick = none ∧
      r.maximumOccurrences = some r'.occurrences) ∨
    (r'.status = .active ∧ r.maximumOccurrences ≠ some r'.occurrences ∧
      ∃ next next' k, r.nextDueTick = some next ∧ r'.nextDueTick = some next' ∧
        next'.value = next.value + k * r.step ∧ upto < next'.value ∧
          ∀ j < k, next.value + j * r.step ≤ upto)

theorem GameScheduleRecord.Advanced.endsAfter {upto : Nat} {r r' : GameScheduleRecord}
    {R : Recurrence} (h : r.Advanced upto r') (hR : r.recurrence = some R) (hlive : R.Live) :
    r.EndsAfter upto r' := by
  obtain ⟨-, next, hnext, hRe⟩ := recurrence_eq_some hR
  have hmade : R.made = r.occurrences.value := by rw [hRe]
  have hoccurrences := h.occurrences
  have hrest := h.recurrence
  rw [hR, Option.map_some, Option.getD_some] at hoccurrences
  rw [hR, Option.bind_some] at hrest
  have hbound : R.bound = some (R.made + R.dueCount upto) ↔
      r.maximumOccurrences = some r'.occurrences := by
    rw [hmade, ← hoccurrences, hRe]
    simp only [GameScheduleDraft.bound, Option.map_eq_some_iff]
    constructor
    · rintro ⟨m, hm, heq⟩
      rw [hm, Decimal.value_injective heq]
    · exact fun hm => ⟨_, hm, rfl⟩
  refine ⟨h.draft, h.scheduleKey, fun ordinal => ?_, ?_⟩
  · simp only [occurs_iff hR hlive, ← Recurrence.lt_dueCount_iff hlive]
    constructor
    · rintro ⟨tick, k, hk, rfl, -⟩
      omega
    · rintro ⟨hlt, hle⟩
      exact ⟨_, ordinal - r.occurrences.value - 1, by omega, by omega, rfl⟩
  · cases hadv : R.advance upto with
    | none =>
      have hend : R.bound = some (R.made + R.dueCount upto) := by
        by_contra hne
        rw [Recurrence.advance, if_neg hne] at hadv
        cases hadv
      rw [hadv] at hrest
      have hstatus := h.status
      rw [hrest] at hstatus
      have hcompleted : r'.status = .completed := hstatus
      exact Or.inl ⟨hcompleted, h.idle (by rw [hcompleted]; decide), hbound.1 hend⟩
    | some Q =>
      rw [hadv] at hrest
      have hlt := Recurrence.next_lt_of_advance hlive hadv
      obtain ⟨hend, hQ⟩ := Recurrence.advance_eq_some_iff.1 hadv
      obtain ⟨hactive, next', hnext', hQe⟩ := recurrence_eq_some hrest
      have hvalue : next'.value = Q.next := by rw [hQe]
      refine Or.inr ⟨hactive, fun hm => hend (hbound.2 hm), next, next', R.dueCount upto, hnext,
        hnext', ?_, hvalue ▸ hlt, fun j hj => ?_⟩
      · rw [hvalue, hQ, hRe]
        rfl
      · have hdue := ((Recurrence.lt_dueCount_iff hlive).1 hj).tick
        rw [hRe] at hdue
        exact hdue

/-! ## A successful advance -/

/-- All the host can do to the store is call it. -/
def IdentifierSource.Nested (ctx : ScheduleContext) (source : IdentifierSource) : Prop :=
  ∀ n u, ScheduleRun ctx u (respond (source n) u).2

/-- A host that makes up an identifier without calling the store. -/
def IdentifierSource.Quiet (source : IdentifierSource) : Prop :=
  ∀ n u, (respond (source n) u).2 = u

/-- A call of `advance` that answers, for a request that passes as `advance`. -/
structure Advances (ctx : ScheduleContext) (newSignalId : IdentifierSource)
    (s : InMemoryScheduleStore) (advance : ScheduleAdvanceDraft Decimal)
    (result : ScheduleAdvanceResult) (s' : InMemoryScheduleStore) : Prop where
  nested : newSignalId.Nested ctx
  call : ∃ input maxGenerated maxPending, normalizeScheduleAdvance input ctx.limits = .ok advance ∧
    respond (InMemoryScheduleStore.advance ctx input maxGenerated maxPending newSignalId) s =
      (.ok result, s')

/-- An advance made an occurrence of a schedule. -/
def ScheduleAdvanceResult.Makes (result : ScheduleAdvanceResult) (scheduleKey ordinal tick : Nat) :
    Prop :=
  ∃ o ∈ result.occurrences, o.scheduleKey = scheduleKey ∧ o.ordinal.value = ordinal ∧
    o.dueTime.tick.value = tick

/-- What a new advance does. -/
structure Generates (s : InMemoryScheduleStore) (advance : ScheduleAdvanceDraft Decimal)
    (result : ScheduleAdvanceResult) (s' : InMemoryScheduleStore) : Prop where
  exactly : ∀ scheduleKey ordinal tick, result.Makes scheduleKey ordinal tick ↔
    ∃ r ∈ s.activeSchedules advance.partition, r.scheduleKey = scheduleKey ∧
      r.Occurs advance.toInclusive.tick.value ordinal tick
  ordered : result.occurrences.Pairwise fun a b =>
    a.dueTime.tick.value < b.dueTime.tick.value ∨
      a.dueTime.tick.value = b.dueTime.tick.value ∧ a.scheduleKey < b.scheduleKey
  stored : ∀ o ∈ result.occurrences, s'.occurrences.get? o.occurrenceKey = some o
  schedules : ∀ r ∈ s.activeSchedules advance.partition, ∃ r',
    s'.schedules.get? r.key = some r' ∧ r.EndsAfter advance.toInclusive.tick.value r'
  clock : s'.clocks.get? advance.partition = some advance.toInclusive.tick

/-- What comes between two stores when a host is asked for identifiers. -/
def Between (ctx : ScheduleContext) (source : IdentifierSource) (s t : InMemoryScheduleStore) :
    Prop :=
  SchedulePath ctx s t ∧ (source.Quiet → t = s)

theorem IdentifierSource.Nested.between {source : IdentifierSource} (h : source.Nested ctx) :
    source.Keeps (Between ctx source) :=
  fun n u => ends_respond.2 ⟨(h n u).path, fun hquiet => hquiet n u⟩

/-- An advance that answers replays an earlier one or commits what its loop made. -/
theorem Advances.ends {newSignalId : IdentifierSource} {advance : ScheduleAdvanceDraft Decimal}
    {result : ScheduleAdvanceResult} (h : Advances ctx newSignalId s advance result s') :
    (∃ existing, s.advances.get? advance.key = some existing ∧ s' = s ∧
        result.advance = existing ∧ result.occurrences = s.occurrencesForAdvance advance) ∨
      s.advances.get? advance.key = none ∧ ∃ plan loop t, s.planAdvance advance = .ok plan ∧
        AdvanceReady ctx plan loop ∧ Between ctx newSignalId s t ∧
          t.commitAdvance ctx plan loop = .ok (result, s') := by
  obtain ⟨input, maxGenerated, maxPending, hadvance, hcall⟩ := h.call
  have hends := (advance_ends (s := s) (R := Between ctx newSignalId)
    (fun _ => ⟨.refl, fun _ => rfl⟩)
    (fun a b c hab hbc => ⟨hab.1.trans hbc.1, fun hquiet => (hbc.2 hquiet).trans (hab.2 hquiet)⟩)
    h.nested.between input maxGenerated maxPending).respond.1 result (by rw [hcall])
  rw [hcall] at hends
  obtain ⟨advance', hadvance', hcase⟩ := hends
  rw [hadvance, Except.ok.injEq] at hadvance'
  subst hadvance'
  rcases hcase with ⟨existing, hexisting, hsame, hreplay⟩ | hnew
  · simp only [replayAdvance, bind_eq_ok] at hreplay
    obtain ⟨_, -, _, -, hreplay⟩ := hreplay
    obtain rfl := return_eq_ok.1 hreplay
    exact Or.inl ⟨existing, hexisting, hsame, rfl, rfl⟩
  · exact Or.inr hnew

theorem Advances.sound {newSignalId : IdentifierSource} {advance : ScheduleAdvanceDraft Decimal}
    {result : ScheduleAdvanceResult} (h : Advances ctx newSignalId s advance result s')
    (hs : s.Sound ctx) : s'.Sound ctx := by
  rcases h.ends with ⟨_, -, rfl, -⟩ | ⟨-, plan, loop, t, -, hready, ht, hcommit⟩
  · exact hs
  · exact (ScheduleStep.advance hready hcommit).sound (ht.1.sound hs)

/-- What an advance that is new committed, and on what. -/
theorem Advances.commits (hs : s.Sound ctx) {newSignalId : IdentifierSource}
    {advance : ScheduleAdvanceDraft Decimal} {result : ScheduleAdvanceResult}
    (h : Advances ctx newSignalId s advance result s')
    (hnew : s.advances.get? advance.key = none) :
    ∃ plan loop t, Between ctx newSignalId s t ∧ AdvanceReady ctx plan loop ∧
      plan.advance = advance ∧ plan.active = s.activeSchedules advance.partition ∧
        AdvanceWrites ctx t plan result s' ∧ result.occurrences = loop.generated := by
  rcases h.ends with ⟨existing, hexisting, -⟩ | ⟨-, plan, loop, t, hplan, hready, ht, hcommit⟩
  · rw [hnew] at hexisting
    cases hexisting
  · obtain ⟨hplanned, hactive, -⟩ := planAdvance_spec hplan
    obtain ⟨hwrites, hgenerated⟩ := commitAdvance_spec (ht.1.sound hs) hready hcommit
    exact ⟨plan, loop, t, ht, hready, hplanned, hactive, hwrites, hgenerated⟩

theorem Advances.generates (hs : s.Sound ctx) {newSignalId : IdentifierSource}
    {advance : ScheduleAdvanceDraft Decimal} {result : ScheduleAdvanceResult}
    (h : Advances ctx newSignalId s advance result s')
    (hnew : s.advances.get? advance.key = none) : Generates s advance result s' := by
  obtain ⟨plan, loop, t, ht, hready, rfl, hactive, hwrites, hgenerated⟩ := h.commits hs hnew
  have hsound := ht.1.sound hs
  have hplan := plan_sound hsound hwrites.active
  obtain ⟨popped, hruns⟩ := hready.runs
  obtain ⟨made, hmade, hall, hkeys, -⟩ := hruns.generated
  rw [AdvancePlan.start, List.nil_append] at hmade
  rw [hmade] at hgenerated
  refine ⟨?_, ?_, ?_, ?_, ?_⟩
  · intro scheduleKey ordinal tick
    rw [← hactive, ScheduleAdvanceResult.Makes, hgenerated]
    constructor
    · rintro ⟨o, ho, rfl, rfl, rfl⟩
      obtain ⟨c, hc, ordinal, occurrenceKey, signalId, hordinal, rfl⟩ :=
        exists_left_of_forall₂ hall ho
      obtain ⟨r, hr, R, k, hR, hlive, hdue, rfl, hrec⟩ := hruns.due_of_popped hplan hc
      refine ⟨c.schedule, hr, rfl, (occurs_iff hR hlive).2 ⟨k, hdue, ?_, ?_⟩⟩
      · have hc : c.ordinal.value = R.made + k := congrArg Recurrence.made hrec
        show ordinal.value = _
        omega
      · exact congrArg Recurrence.next hrec
    · rintro ⟨r, hr, rfl, hoccurs⟩
      obtain ⟨R, hR, hlive⟩ := hplan.live r hr
      obtain ⟨k, hdue, rfl, rfl⟩ := (occurs_iff hR hlive).1 hoccurs
      obtain ⟨c, hc, rfl, hrec⟩ := hruns.popped_of_due hr hR hlive hdue
      obtain ⟨o, ho, ordinal, occurrenceKey, signalId, hordinal, rfl⟩ :=
        exists_right_of_forall₂ hall hc
      have hmade' : c.ordinal.value = R.made + k := congrArg Recurrence.made hrec
      refine ⟨_, ho, rfl, ?_, congrArg Recurrence.next hrec⟩
      show ordinal.value = _
      omega
  · rw [hgenerated]
    refine pairwise_of_forall₂ hall (hruns.pairwise hplan) ?_
    rintro a b _ _ ⟨_, _, _, -, rfl⟩ ⟨_, _, _, -, rfl⟩ hbefore
    exact hbefore
  · intro o ho
    rw [hwrites.occurrences]
    refine OrderedMap.get?_foldl_set_of_mem ?_ ho
    rw [hwrites.keys]
    exact List.nodup_range'
  · intro r hr
    rw [← hactive] at hr
    obtain ⟨R, hR, hlive⟩ := hplan.live r hr
    obtain ⟨r', hr', hadv⟩ := hwrites.advanced r hr
    exact ⟨r', hr', hadv.endsAfter hR hlive⟩
  · rw [hwrites.clocks, OrderedMap.get?_set_self]

/-! ## Advancing in two steps -/

/-- Two records of a schedule stand at the same place; how often they were written may
differ. -/
structure GameScheduleRecord.SameProgress (r q : GameScheduleRecord) : Prop where
  draft : r.toGameScheduleDraft = q.toGameScheduleDraft
  scheduleKey : r.scheduleKey = q.scheduleKey
  status : r.status = q.status
  occurrences : r.occurrences = q.occurrences
  nextDueTick : r.nextDueTick = q.nextDueTick

/-- Moving a schedule in two steps comes to the same as moving it in one. -/
theorem GameScheduleRecord.Advanced.split {mid upto : Nat} {r q p : GameScheduleRecord}
    {R : Recurrence} (hR : r.recurrence = some R) (hlive : R.Live) (hle : mid ≤ upto)
    (hfirst : r.Advanced mid q) (hwhole : r.Advanced upto p) {q' : GameScheduleRecord}
    (hsecond : q.Advanced upto q' ∨ (q.recurrence = none ∧ q' = q)) : q'.SameProgress p := by
  have hrecurrence : q'.recurrence = p.recurrence ∧ q'.occurrences.value = p.occurrences.value ∧
      q'.toGameScheduleDraft = p.toGameScheduleDraft ∧ q'.scheduleKey = p.scheduleKey ∧
      q'.status = (if q'.recurrence.isSome then .active else .completed) ∧
      (q'.status ≠ .active → q'.nextDueTick = none) := by
    have hcount := Recurrence.dueCount_split hlive hle
    have hsplit := Recurrence.advance_split hlive hle
    have hq := hfirst.recurrence
    have hp := hwhole.recurrence
    have hqo := hfirst.occurrences
    have hpo := hwhole.occurrences
    rw [hR, Option.bind_some] at hq hp
    rw [hR, Option.map_some, Option.getD_some] at hqo hpo
    rw [← hq] at hcount hsplit
    rcases hsecond with hsecond | ⟨hnone, rfl⟩
    · have hq' := hsecond.recurrence
      have hqo' := hsecond.occurrences
      refine ⟨?_, ?_, ?_, ?_, hsecond.status, hsecond.idle⟩
      · rw [hp, hsplit, hq']
      · rw [hqo', hqo, hpo, hcount, Nat.add_assoc]
      · rw [hsecond.draft, hfirst.draft, hwhole.draft]
      · rw [hsecond.scheduleKey, hfirst.scheduleKey, hwhole.scheduleKey]
    · rw [hnone] at hcount hsplit
      refine ⟨?_, ?_, ?_, ?_, hfirst.status, hfirst.idle⟩
      · rw [hp, hsplit, hnone, Option.bind_none]
      · rw [hqo, hpo, hcount, Option.map_none, Option.getD_none, Nat.add_zero]
      · rw [hfirst.draft, hwhole.draft]
      · rw [hfirst.scheduleKey, hwhole.scheduleKey]
  obtain ⟨hrec, hocc, hdraft, hkey, hstatus, hidle⟩ := hrecurrence
  have hpstatus := hwhole.status
  refine ⟨hdraft, hkey, by rw [hstatus, hpstatus, hrec], Decimal.value_injective hocc, ?_⟩
  cases hp : p.recurrence with
  | none =>
    rw [hp] at hrec hpstatus
    rw [hrec] at hstatus
    rw [hidle (by rw [hstatus]; decide), hwhole.idle (by rw [hpstatus]; decide)]
  | some P =>
    rw [hp] at hrec
    obtain ⟨-, next, hnext, hPe⟩ := recurrence_eq_some hp
    obtain ⟨-, next', hnext', hPe'⟩ := recurrence_eq_some hrec
    have hvalue : next'.value = next.value := by
      have := congrArg Recurrence.next (hPe.symm.trans hPe')
      exact this.symm
    rw [hnext, hnext', Decimal.value_injective hvalue]

/-- `(a, b]` and `(b, c]` of one generation make up `(a, c]`. -/
structure Splits (first second whole : ScheduleAdvanceDraft Decimal) : Prop where
  firstPartition : first.partition = whole.partition
  secondPartition : second.partition = whole.partition
  fromExclusive : first.fromExclusive.tick = whole.fromExclusive.tick
  between : first.toInclusive.tick = second.fromExclusive.tick
  toInclusive : second.toInclusive.tick = whole.toInclusive.tick

theorem GameScheduleRecord.SameProgress.refl (r : GameScheduleRecord) : r.SameProgress r :=
  ⟨rfl, rfl, rfl, rfl, rfl⟩

/-- Where an advance leaves a schedule that was active in its generation. -/
theorem AdvanceWrites.active_iff {plan : AdvancePlan} {result : ScheduleAdvanceResult}
    {t : InMemoryScheduleStore} (h : AdvanceWrites ctx t plan result s') (ht : t.Sound ctx)
    {q : GameScheduleRecord} :
    q ∈ s'.activeSchedules plan.advance.partition ↔
      ∃ r ∈ plan.active, r.Advanced plan.advance.toInclusive.tick.value q ∧
        s'.schedules.get? r.key = some q ∧ q.status = .active := by
  rw [mem_activeSchedules]
  constructor
  · rintro ⟨⟨k, hk⟩, hactive, hgeneration⟩
    rcases h.of_get? ht hk with ⟨r, hr, hget, hadv⟩ | ⟨hget, hnot⟩
    · exact ⟨r, hr, hadv, (ht.schedule k r hget).key ▸ hk, hactive⟩
    · rw [← h.active, mem_activeSchedules] at hnot
      exact absurd ⟨⟨k, hget⟩, hactive, hgeneration⟩ hnot
  · rintro ⟨r, hr, hadv, hget, hactive⟩
    refine ⟨⟨_, hget⟩, hactive, ?_⟩
    rw [hadv.draft]
    exact (ht.active (h.active ▸ hr)).2.1

/-- The occurrences of a schedule up to a tick are those up to an earlier one and those of
the schedule as it stands there. -/
theorem GameScheduleRecord.Advanced.occurs_split {mid upto : Nat} {r q : GameScheduleRecord}
    {R : Recurrence} (h : r.Advanced mid q) (hR : r.recurrence = some R) (hlive : R.Live)
    (hle : mid ≤ upto) {ordinal tick : Nat} :
    r.Occurs upto ordinal tick ↔
      r.Occurs mid ordinal tick ∨ (q.status = .active ∧ q.Occurs upto ordinal tick) := by
  have hsplit := Recurrence.occurrences_split hlive hle
  have hrest := h.recurrence
  have hstatus := h.status
  rw [hR, Option.bind_some] at hrest
  rw [← hrest] at hsplit
  rw [occurs_iff hR hlive, occurs_iff hR hlive, ← Recurrence.mem_occurrences hlive,
    ← Recurrence.mem_occurrences hlive, hsplit, List.mem_append]
  cases hq : q.recurrence with
  | none =>
    rw [hq] at hstatus
    simp [hstatus]
  | some Q =>
    rw [hq] at hrest
    have hlive' := Recurrence.live_advance hlive hrest.symm
    rw [Option.map_some, Option.getD_some, Recurrence.mem_occurrences hlive',
      ← occurs_iff hq hlive', (recurrence_eq_some hq).1]
    simp

section TwoSteps

variable {first second whole : ScheduleAdvanceDraft Decimal}
  {source₁ source₂ source₃ : IdentifierSource} {result₁ result₂ result₃ : ScheduleAdvanceResult}
  {s₁ s₂ s₃ : InMemoryScheduleStore}

/-- Two steps make the occurrences that one makes. -/
theorem makes_split (hs : s.Sound ctx) (hsplits : Splits first second whole)
    (h₁ : Advances ctx source₁ s first result₁ s₁)
    (h₂ : Advances ctx source₂ s₁ second result₂ s₂)
    (h₃ : Advances ctx source₃ s whole result₃ s₃)
    (hnew₁ : s.advances.get? first.key = none) (hnew₂ : s₁.advances.get? second.key = none)
    (hnew₃ : s.advances.get? whole.key = none) (scheduleKey ordinal tick : Nat) :
    result₃.Makes scheduleKey ordinal tick ↔
      result₁.Makes scheduleKey ordinal tick ∨ result₂.Makes scheduleKey ordinal tick := by
  have hg₂ := (h₂.generates (h₁.sound hs) hnew₂).exactly scheduleKey ordinal tick
  have hg₃ := (h₃.generates hs hnew₃).exactly scheduleKey ordinal tick
  have hg₁ := (h₁.generates hs hnew₁).exactly scheduleKey ordinal tick
  obtain ⟨plan, loop, t, ht, hready, rfl, hactive, hwrites, -⟩ := h₁.commits hs hnew₁
  obtain ⟨plan₂, _, _, -, hready₂, hplan₂, -⟩ := h₂.commits (h₁.sound hs) hnew₂
  have hsound := ht.1.sound hs
  have hle : plan.advance.toInclusive.tick.value ≤ whole.toInclusive.tick.value := by
    rw [hsplits.between, ← hsplits.toInclusive, ← hplan₂]
    exact hready₂.accepted.forward.le
  rw [hg₁, hg₂, hg₃, hsplits.secondPartition, hsplits.toInclusive, ← hsplits.firstPartition,
    ← hactive]
  simp only [hwrites.active_iff hsound]
  constructor
  · rintro ⟨r, hr, hkey, hoccurs⟩
    obtain ⟨R, hR, hlive⟩ := (plan_sound hsound hwrites.active).live r hr
    obtain ⟨q, hget, hadv⟩ := hwrites.advanced r hr
    rcases (hadv.occurs_split hR hlive hle).1 hoccurs with hoccurs | ⟨hstatus, hoccurs⟩
    · exact Or.inl ⟨r, hr, hkey, hoccurs⟩
    · exact Or.inr ⟨q, ⟨r, hr, hadv, hget, hstatus⟩, hadv.scheduleKey.trans hkey, hoccurs⟩
  · rintro (⟨r, hr, hkey, hoccurs⟩ | ⟨q, ⟨r, hr, hadv, -, hstatus⟩, hkey, hoccurs⟩)
    · obtain ⟨R, hR, hlive⟩ := (plan_sound hsound hwrites.active).live r hr
      obtain ⟨q, hget, hadv⟩ := hwrites.advanced r hr
      exact ⟨r, hr, hkey, (hadv.occurs_split hR hlive hle).2 (Or.inl hoccurs)⟩
    · obtain ⟨R, hR, hlive⟩ := (plan_sound hsound hwrites.active).live r hr
      exact ⟨r, hr, hadv.scheduleKey.symm.trans hkey,
        (hadv.occurs_split hR hlive hle).2 (Or.inr ⟨hstatus, hoccurs⟩)⟩

/-- Two steps leave the schedules where one leaves them. -/
theorem progress_split (hs : s.Sound ctx) (hsplits : Splits first second whole)
    (h₁ : Advances ctx source₁ s first result₁ s₁)
    (h₂ : Advances ctx source₂ s₁ second result₂ s₂)
    (h₃ : Advances ctx source₃ s whole result₃ s₃)
    (hnew₁ : s.advances.get? first.key = none) (hnew₂ : s₁.advances.get? second.key = none)
    (hnew₃ : s.advances.get? whole.key = none) (hquiet₁ : source₁.Quiet) (hquiet₂ : source₂.Quiet)
    (hquiet₃ : source₃.Quiet) (k : GameScheduleKey) :
    Option.Rel GameScheduleRecord.SameProgress (s₂.schedules.get? k) (s₃.schedules.get? k) := by
  have hsound₁ := h₁.sound hs
  obtain ⟨plan₁, -, t₁, ht₁, -, hplan₁, hactive₁, hwrites₁, -⟩ := h₁.commits hs hnew₁
  obtain ⟨plan₂, _, t₂, ht₂, hready₂, hplan₂, hactive₂, hwrites₂, -⟩ := h₂.commits hsound₁ hnew₂
  obtain ⟨plan₃, -, t₃, ht₃, -, hplan₃, hactive₃, hwrites₃, -⟩ := h₃.commits hs hnew₃
  obtain rfl := ht₁.2 hquiet₁
  obtain rfl := ht₂.2 hquiet₂
  obtain rfl := ht₃.2 hquiet₃
  subst hplan₁ hplan₂ hplan₃
  have hle : plan₁.advance.toInclusive.tick.value ≤ plan₃.advance.toInclusive.tick.value := by
    rw [hsplits.between, ← hsplits.toInclusive]
    exact hready₂.accepted.forward.le
  have hsame : plan₁.active = plan₃.active := by
    rw [hactive₁, hactive₃, hsplits.firstPartition]
  have hactive_iff : ∀ q, q ∈ plan₂.active ↔ ∃ r ∈ plan₁.active,
      r.Advanced plan₁.advance.toInclusive.tick.value q ∧
        t₂.schedules.get? r.key = some q ∧ q.status = .active := fun q => by
    rw [hactive₂, hsplits.secondPartition, ← hsplits.firstPartition, hwrites₁.active_iff hs]
  by_cases hmem : ∃ r ∈ plan₁.active, r.key = k
  · obtain ⟨r, hr, rfl⟩ := hmem
    obtain ⟨R, hR, hlive⟩ := (plan_sound hs hwrites₁.active).live r hr
    obtain ⟨q, hq, hfirst⟩ := hwrites₁.advanced r hr
    obtain ⟨p, hp, hwhole⟩ := hwrites₃.advanced r (hsame ▸ hr)
    have hkey : q.key = r.key := by rw [hfirst.draft]
    rw [hp]
    by_cases hstatus : q.status = .active
    · obtain ⟨q', hq', hsecond⟩ :=
        hwrites₂.advanced q ((hactive_iff q).2 ⟨r, hr, hfirst, hq, hstatus⟩)
      rw [hkey] at hq'
      rw [hq']
      rw [hsplits.toInclusive] at hsecond
      exact .some (hfirst.split hR hlive hle hwhole (Or.inl hsecond))
    · -- a schedule that the first step completed is left alone by the second
      have hnone : q.recurrence = none := by
        rw [GameScheduleRecord.recurrence, if_neg hstatus]
      rw [hwrites₂.others, hq]
      · exact .some (hfirst.split hR hlive hle hwhole (Or.inr ⟨hnone, rfl⟩))
      · intro q' hq' hk
        obtain ⟨r', hr', hfirst', hget', hstatus'⟩ := (hactive_iff q').1 hq'
        have hk' : r'.key = r.key := by rw [← hk, hfirst'.draft]
        rw [hk', hq, Option.some.injEq] at hget'
        exact hstatus (hget' ▸ hstatus')
  · have hnone₁ : ∀ r ∈ plan₁.active, r.key ≠ k := fun r hr hk => hmem ⟨r, hr, hk⟩
    have hnone₂ : ∀ q ∈ plan₂.active, q.key ≠ k := by
      rintro q hq rfl
      obtain ⟨r, hr, hfirst, -, -⟩ := (hactive_iff q).1 hq
      refine hnone₁ r hr ?_
      rw [hfirst.draft]
    rw [hwrites₂.others k hnone₂, hwrites₁.others k hnone₁, hwrites₃.others k (hsame ▸ hnone₁)]
    cases t₃.schedules.get? k with
    | none => exact .none
    | some r => exact .some (.refl r)

end TwoSteps

/-! ## Every advance -/

/-- In every reachable store, an advance that answers replays an earlier one or generates
the due occurrences; and advances over `(a, b]` and `(b, c]` make what one over `(a, c]`
makes and, when the host keeps out of it, leave the same schedules. -/
theorem advance_generates_due (hs : ScheduleRun ctx .empty s) :
    (∀ newSignalId advance result s', Advances ctx newSignalId s advance result s' →
      (∃ existing, s.advances.get? advance.key = some existing ∧ s' = s ∧
          result.advance = existing ∧ result.occurrences = s.occurrencesForAdvance advance) ∨
        (s.advances.get? advance.key = none ∧ Generates s advance result s')) ∧
    ∀ first second whole source₁ source₂ source₃ result₁ result₂ result₃ s₁ s₂ s₃,
      Splits first second whole →
      Advances ctx source₁ s first result₁ s₁ → s.advances.get? first.key = none →
      Advances ctx source₂ s₁ second result₂ s₂ → s₁.advances.get? second.key = none →
      Advances ctx source₃ s whole result₃ s₃ → s.advances.get? whole.key = none →
      (∀ scheduleKey ordinal tick, result₃.Makes scheduleKey ordinal tick ↔
          result₁.Makes scheduleKey ordinal tick ∨ result₂.Makes scheduleKey ordinal tick) ∧
        (source₁.Quiet → source₂.Quiet → source₃.Quiet → ∀ k,
          Option.Rel GameScheduleRecord.SameProgress (s₂.schedules.get? k)
            (s₃.schedules.get? k)) := by
  have hsound := hs.sound empty_sound
  constructor
  · intro newSignalId advance result s' h
    rcases h.ends with hreplay | ⟨hnew, -⟩
    · exact Or.inl hreplay
    · exact Or.inr ⟨hnew, h.generates hsound hnew⟩
  · intro first second whole source₁ source₂ source₃ result₁ result₂ result₃ s₁ s₂ s₃ hsplits
      h₁ hnew₁ h₂ hnew₂ h₃ hnew₃
    exact ⟨makes_split hsound hsplits h₁ h₂ h₃ hnew₁ hnew₂ hnew₃,
      progress_split hsound hsplits h₁ h₂ h₃ hnew₁ hnew₂ hnew₃⟩

/-! ## A field that is harvested -/

theorem compareAdvanceCursors_total (a b : AdvanceCursor) :
    compareAdvanceCursors a b ≠ .gt ∨ compareAdvanceCursors b a ≠ .gt := by
  rw [compareAdvanceCursors_ne_gt, compareAdvanceCursors_ne_gt]
  omega

theorem compareAdvanceCursors_trans (a b c : AdvanceCursor)
    (hab : compareAdvanceCursors a b ≠ .gt) (hbc : compareAdvanceCursors b c ≠ .gt) :
    compareAdvanceCursors a c ≠ .gt := by
  rw [compareAdvanceCursors_ne_gt] at hab hbc ⊢
  omega

/-- A store with limits of one digit, whose queue sorts its cursors. -/
def smallContext : ScheduleContext where
  limits :=
    { maxIdentifierBytes := 16, maxPayloadBytes := 64, maxSubjectsPerSchedule := 1,
      maxCausesPerSchedule := 1, maxTickDigits := 1, maxCounterDigits := 1,
      maxActiveSchedulesPerTimelineGeneration := 4, maxOccurrencesPerAdvance := 4,
      maxPendingOccurrencesPerTimelineGeneration := 4, maxSchedulePageSize := 4,
      maxOccurrencePageSize := 4, maxClaimBatchSize := 4, maxPurgeBatchSize := 4 }
  limitsValid := rfl
  cursors := .sorting compareAdvanceCursors compareAdvanceCursors_total compareAdvanceCursors_trans

/-- A field nobody in particular works on. -/
def field : SchedulePartition where
  ownerId := "o"
  timelineId := "t"
  generation := "0"
  sessionId := none
  actorId := none

/-- A schedule without an end. -/
def harvest (partition : SchedulePartition) (dueTick intervalTicks : String) :
    GameScheduleDraft String where
  scheduleId := "h"
  partition := partition
  kind := "h"
  payload := .null
  dueTime := { timelineId := "t", generation := "0", tick := dueTick }
  intervalTicks := some intervalTicks
  maximumOccurrences := none
  subjectIds := []
  causeIds := []
  recordedAt := "1970-01-01T00:00:00.000Z"

/-- The advance of the field's clock from one tick to another. -/
def days {δ : Type} (advanceId : String) (fromExclusive toInclusive : δ) :
    ScheduleAdvanceDraft δ where
  advanceId := advanceId
  partition := field.toScheduleGeneration
  fromExclusive := { timelineId := "t", generation := "0", tick := fromExclusive }
  toInclusive := { timelineId := "t", generation := "0", tick := toInclusive }
  recordedAt := "1970-01-01T00:00:00.000Z"

/-- A host that has one identifier. -/
def oneSignal : IdentifierSource := fun _ => pure "s"

theorem oneSignal_quiet : oneSignal.Quiet := fun _ _ => rfl

theorem oneSignal_nested : oneSignal.Nested ctx := fun _ u => .refl u

/-- The field when it is sown: due at tick 2 and then every third tick. -/
def sown : InMemoryScheduleStore :=
  (respond ((ScheduleCall.create (harvest field "2" "3") 4).run smallContext) .empty).2

theorem sown_run : ScheduleRun smallContext .empty sown :=
  .call (.create (harvest field "2" "3") 4) (.refl _) fun _ u => .refl u

/-- The answer of a store to an advance, and what becomes of the store. -/
def farm (s : InMemoryScheduleStore) (input : ScheduleAdvanceDraft String) :
    Except ScheduleError ScheduleAdvanceResult × InMemoryScheduleStore :=
  respond (InMemoryScheduleStore.advance smallContext input 4 4 oneSignal) s

/-- An advance that answers. -/
theorem advances_of_answer (s : InMemoryScheduleStore) (input : ScheduleAdvanceDraft String)
    (advance : ScheduleAdvanceDraft Decimal)
    (hnormal : normalizeScheduleAdvance input smallContext.limits = .ok advance)
    (hanswer : (farm s input).1.toBool = true) :
    ∃ result, Advances smallContext oneSignal s advance result (farm s input).2 := by
  cases hresult : (farm s input).1 with
  | error e =>
    rw [hresult] at hanswer
    cases hanswer
  | ok result =>
    exact ⟨result, oneSignal_nested, input, 4, 4, hnormal, Prod.ext hresult rfl⟩

/-- Harvesting at tick 2 and then until tick 5 comes to harvesting until tick 5 at once. -/
theorem advance_generates_due_harvest :
    ∃ (result₁ result₂ result₃ : ScheduleAdvanceResult) (s₁ s₂ s₃ : InMemoryScheduleStore),
      Generates sown (days "a" (.ofNat 0) (.ofNat 2)) result₁ s₁ ∧
      Generates sown (days "c" (.ofNat 0) (.ofNat 5)) result₃ s₃ ∧
      (∀ scheduleKey ordinal tick, result₃.Makes scheduleKey ordinal tick ↔
        result₁.Makes scheduleKey ordinal tick ∨ result₂.Makes scheduleKey ordinal tick) ∧
      ∀ k, Option.Rel GameScheduleRecord.SameProgress (s₂.schedules.get? k)
        (s₃.schedules.get? k) := by
  obtain ⟨result₁, h₁⟩ := advances_of_answer sown (days "a" "0" "2")
    (days "a" (.ofNat 0) (.ofNat 2)) rfl (by decide +kernel)
  obtain ⟨result₂, h₂⟩ := advances_of_answer (farm sown (days "a" "0" "2")).2
    (days "b" "2" "5") (days "b" (.ofNat 2) (.ofNat 5)) rfl (by decide +kernel)
  obtain ⟨result₃, h₃⟩ := advances_of_answer sown (days "c" "0" "5")
    (days "c" (.ofNat 0) (.ofNat 5)) rfl (by decide +kernel)
  have hnew₁ : sown.advances.get? (days "a" (.ofNat 0) (.ofNat 2)).key = none := by decide +kernel
  have hnew₂ : (farm sown (days "a" "0" "2")).2.advances.get?
      (days "b" (.ofNat 2) (.ofNat 5)).key = none := by decide +kernel
  have hnew₃ : sown.advances.get? (days "c" (.ofNat 0) (.ofNat 5)).key = none := by decide +kernel
  have hall := advance_generates_due sown_run
  have hsplit := hall.2 (days "a" (.ofNat 0) (.ofNat 2)) (days "b" (.ofNat 2) (.ofNat 5))
    (days "c" (.ofNat 0) (.ofNat 5)) _ _ _ result₁ result₂ result₃ _ _ _
    ⟨rfl, rfl, rfl, rfl, rfl⟩ h₁ hnew₁ h₂ hnew₂ h₃ hnew₃
  refine ⟨result₁, result₂, result₃, (farm sown (days "a" "0" "2")).2, _, _, ?_, ?_, hsplit.1,
    hsplit.2 oneSignal_quiet oneSignal_quiet oneSignal_quiet⟩
  · rcases hall.1 _ _ _ _ h₁ with ⟨existing, hexisting, -⟩ | ⟨-, hgenerates⟩
    · rw [hnew₁] at hexisting
      cases hexisting
    · exact hgenerates
  · rcases hall.1 _ _ _ _ h₃ with ⟨existing, hexisting, -⟩ | ⟨-, hgenerates⟩
    · rw [hnew₃] at hexisting
      cases hexisting
    · exact hgenerates

end OpenGameAgent
