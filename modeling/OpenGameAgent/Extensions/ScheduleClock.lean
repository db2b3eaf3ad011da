import OpenGameAgent.Extensions.ScheduleRetirement

/-!
# When the game clock can move

An advance is all or nothing: one schedule whose next tick, ordinal or revision cannot be
written stops the clock of its generation.

* `GameScheduleRecord.Fits` — the numbers a schedule needs when the clock moves to a tick
  can be written.
* `advance_succeeds_iff` — in every reachable store, an advance that respects the limits
  succeeds exactly when every active schedule of the generation fits.
-/

namespace OpenGameAgent

open InMemoryScheduleStore

variable {ctx : ScheduleContext} {s s' : InMemoryScheduleStore}

/-! ## Schedules that fit -/

/-- The numbers a schedule needs when it is due can be written: its revision, its last
ordinal, and its next tick unless it has no more occurrences. -/
structure GameScheduleRecord.Fits (limits : ScheduleLimits) (upto : Nat) (r : GameScheduleRecord) :
    Prop where
  revision : ∀ R, r.recurrence = some R → 0 < R.dueCount upto →
    r.revision.value + 1 < 10 ^ limits.maxCounterDigits
  ordinal : ∀ R, r.recurrence = some R → 0 < R.dueCount upto →
    r.occurrences.value + R.dueCount upto < 10 ^ limits.maxCounterDigits
  next : ∀ R Q, r.recurrence = some R → 0 < R.dueCount upto → R.advance upto = some Q →
    Q.next < 10 ^ limits.maxTickDigits

/-- The same of a cursor that is in the queue. -/
structure AdvanceCursor.Fits (ctx : ScheduleContext) (upto : Nat) (c : AdvanceCursor) : Prop where
  live : c.recurrence.Live
  due : 0 < c.recurrence.dueCount upto
  ordinal : c.ordinal.value + c.recurrence.dueCount upto < 10 ^ ctx.limits.maxCounterDigits
  next : ∀ Q, c.recurrence.advance upto = some Q → Q.next < 10 ^ ctx.limits.maxTickDigits

/-- What a cursor that could be moved needed. -/
theorem fits_of_moved {c moved : AdvanceCursor} (h : advanceCursor ctx c = .ok moved) :
    c.ordinal.value + 1 < 10 ^ ctx.limits.maxCounterDigits ∧
      (moved.completed = false →
        c.dueTick.value + c.schedule.step < 10 ^ ctx.limits.maxTickDigits) := by
  simp only [advanceCursor, bind_eq_ok,
    incrementScheduleDecimal_eq_ok_iff ctx.maxCounterDigits_pos] at h
  obtain ⟨ordinal, ⟨hordinal, hdigits⟩, h⟩ := h
  refine ⟨hdigits, fun hcompleted => ?_⟩
  unfold moveCursor at h
  dsimp only at h
  split at h
  · rename_i intervalTicks _ hinterval
    simp only [bind_eq_ok, addScheduleDecimals_eq_ok_iff ctx.maxTickDigits_pos] at h
    obtain ⟨dueTick, ⟨-, htick⟩, -⟩ := h
    rw [GameScheduleDraft.step, hinterval]
    exact htick
  · cases h
    cases hcompleted

/-- A cursor that fits can be moved. -/
theorem AdvanceCursor.Fits.moves {upto : Decimal} {c : AdvanceCursor}
    (h : c.Fits ctx upto.value) (hupto : upto.value < 10 ^ ctx.limits.maxTickDigits)
    {ordinal : Decimal} (hordinal : ordinal.value = c.ordinal.value + 1) :
    ∃ moved, moveCursor ctx { c with ordinal := ordinal } = .ok moved := by
  have hcompletes := completes_iff h.live hordinal
  unfold moveCursor
  dsimp only
  cases hany : c.schedule.maximumOccurrences.any fun maximum => scheduleDecimalLe maximum ordinal
  · rw [hany] at hcompletes
    have hend : c.recurrence.bound ≠ some (c.recurrence.made + 1) := fun hb =>
      Bool.false_ne_true (hcompletes.2 hb)
    cases hinterval : c.schedule.intervalTicks with
    | none => exact ⟨_, rfl⟩
    | some intervalTicks =>
      have hstep : c.recurrence.step = intervalTicks.value := by
        simp [AdvanceCursor.recurrence, GameScheduleDraft.step, hinterval]
      have htick : c.dueTick.value + intervalTicks.value < 10 ^ ctx.limits.maxTickDigits := by
        have hnext : c.recurrence.next = c.dueTick.value := rfl
        by_cases hdue : 1 < c.recurrence.dueCount upto.value
        · -- the tick behind is due as well
          have := ((Recurrence.lt_dueCount_iff h.live).1 hdue).tick
          omega
        · have hcount : c.recurrence.dueCount upto.value = 1 := by
            have := h.due
            omega
          have := h.next (c.recurrence.after 1) (by
            rw [Recurrence.advance_eq_some_iff, hcount]
            exact ⟨hend, rfl⟩)
          simp only [Recurrence.after] at this
          omega
      have hadd := (addScheduleDecimals_eq_ok_iff ctx.maxTickDigits_pos).2
        ⟨Decimal.value_ofNat (c.dueTick.value + intervalTicks.value), htick⟩
      dsimp only
      rw [hadd]
      exact ⟨_, rfl⟩
  · exact ⟨_, rfl⟩

/-- The cursor that is put back fits as well, and has one occurrence less to come. -/
theorem AdvanceCursor.Fits.next_fits {upto : Decimal} {c c' : AdvanceCursor}
    (h : c.Fits ctx upto.value) (hnext : nextCursor ctx upto c = some c') :
    c'.Fits ctx upto.value ∧
      c'.recurrence.dueCount upto.value + 1 = c.recurrence.dueCount upto.value := by
  obtain ⟨-, hrec, hlive, hdue⟩ := nextCursor_spec h.live hnext
  have hcount := (Recurrence.lt_dueCount_iff h.live).2 hdue
  have hafter : (c.recurrence.after 1).Live := hrec ▸ hlive
  have hdueCount : (c.recurrence.after 1).dueCount upto.value =
      c.recurrence.dueCount upto.value - 1 := Recurrence.dueCount_after h.live hafter
  have hadvance := Recurrence.advance_after h.live hafter (Nat.le_of_lt hcount)
  have hordinal : c'.ordinal.value = c.ordinal.value + 1 := congrArg Recurrence.made hrec
  rw [← hrec] at hdueCount hadvance
  have hfits := h.ordinal
  exact ⟨⟨hlive, by omega, by omega, fun Q hQ => h.next Q (hadvance ▸ hQ)⟩, by omega⟩

/-- The occurrences that the cursors have to come. -/
def remaining (upto : Nat) (cursors : List AdvanceCursor) : Nat :=
  (cursors.map fun c => c.recurrence.dueCount upto).sum

/-! ## The loop succeeds -/

/-- A host that answers with identifiers that pass and keeps out of the store. -/
def IdentifierSource.Answers (ctx : ScheduleContext) (source : IdentifierSource) : Prop :=
  ∀ n u, ∃ signalId, respond (source n) u = (.ok signalId, u) ∧
    validateScheduleIdentifier signalId ctx.limits.maxIdentifierBytes "signal_id" = .ok ()

theorem IdentifierSource.Answers.ends {source : IdentifierSource} (h : source.Answers ctx) (n : Nat)
    (u : InMemoryScheduleStore) :
    Ends (source n) u (fun signalId u' => u' = u ∧
      validateScheduleIdentifier signalId ctx.limits.maxIdentifierBytes "signal_id" = .ok ())
      fun _ _ => False := by
  obtain ⟨signalId, hanswer, hvalid⟩ := h n u
  unfold respond at hanswer
  unfold Ends
  cases hsource : source n u with
  | ok a u' =>
    rw [hsource] at hanswer
    cases hanswer
    exact ⟨rfl, hvalid⟩
  | error e u' =>
    rw [hsource] at hanswer
    cases hanswer

section Loop

variable {plan : AdvancePlan} {maxPending : Nat} {newSignalId : IdentifierSource}

/-- While the cursors fit and the limits leave room for what they have to come, no round
throws. -/
theorem advanceLoop_succeeds (hhost : newSignalId.Answers ctx)
    (hupto : plan.advance.toInclusive.tick.value < 10 ^ ctx.limits.maxTickDigits) (room : Nat)
    (loop : AdvanceLoop ctx) (s : InMemoryScheduleStore)
    (hfits : ∀ c ∈ ctx.cursors.items loop.cursors,
      c.Fits ctx plan.advance.toInclusive.tick.value)
    (hroom : remaining plan.advance.toInclusive.tick.value (ctx.cursors.items loop.cursors) ≤ room)
    (hpending : plan.pending + loop.generated.length +
      remaining plan.advance.toInclusive.tick.value (ctx.cursors.items loop.cursors) ≤
        maxPending) :
    Ends (advanceLoop ctx plan maxPending newSignalId room loop) s (fun _ s' => s' = s)
      fun _ _ => False := by
  induction room generalizing loop with
  | zero =>
    rw [advanceLoop]
    cases hpop : ctx.cursors.pop loop.cursors with
    | none => exact rfl
    | some pair =>
      -- a cursor in the queue has an occurrence to come
      obtain ⟨cursor, cursors⟩ := pair
      have hitems := (ctx.cursors.pop_some _ _ _ hpop).1
      have hdue := (hfits cursor (hitems.mem_iff.2 (List.mem_cons_self ..))).due
      rw [remaining, (hitems.map _).sum_eq, List.map_cons, List.sum_cons] at hroom
      omega
  | succ room ih =>
    rw [advanceLoop]
    cases hpop : ctx.cursors.pop loop.cursors with
    | none => exact rfl
    | some pair =>
      obtain ⟨cursor, cursors⟩ := pair
      have hitems := (ctx.cursors.pop_some _ _ _ hpop).1
      have hcursor := hfits cursor (hitems.mem_iff.2 (List.mem_cons_self ..))
      have hdue := hcursor.due
      have hordinal := hcursor.ordinal
      rw [remaining, (hitems.map _).sum_eq, List.map_cons, List.sum_cons] at hroom hpending
      dsimp only
      rw [ends_bind, advanceRound, ends_bind, ends_attempt]
      refine ⟨fun _ _ => ?_, fun e he => ?_⟩
      swap
      · rw [require, if_pos (by simpa using by omega)] at he
        cases he
      rw [ends_bind, ends_attempt]
      refine ⟨fun ordinal hincrement => ?_, fun e he => ?_⟩
      swap
      · have hok : incrementScheduleDecimal cursor.ordinal ctx.limits.maxCounterDigits
            "occurrences" = .ok (.ofNat (cursor.ordinal.value + 1)) :=
          (incrementScheduleDecimal_eq_ok_iff ctx.maxCounterDigits_pos).2
            ⟨Decimal.value_ofNat _, by omega⟩
        rw [hok] at he
        cases he
      rw [ends_bind]
      refine (hhost.ends loop.generated.length s).mono ?_ fun _ _ h => h
      rintro signalId _ ⟨rfl, hvalid⟩
      rw [ends_bind, hvalid, ends_attempt_ok]
      rw [ends_bind, ends_attempt]
      obtain ⟨hvalue, -⟩ :=
        (incrementScheduleDecimal_eq_ok_iff ctx.maxCounterDigits_pos).1 hincrement
      obtain ⟨moved, hmoved⟩ := hcursor.moves hupto hvalue
      refine ⟨fun moved' hmoved' => ?_, fun e he => ?_⟩
      swap
      · rw [hmoved] at he
        cases he
      rw [hmoved, Except.ok.injEq] at hmoved'
      subst hmoved'
      rw [ends_pure]
      have hnext : requeued plan.advance.toInclusive.tick moved =
          nextCursor ctx plan.advance.toInclusive.tick cursor := by
        rw [nextCursor, LoopRuns.advanceCursor_eq hincrement hmoved]
      have hpushed := ctx.cursors.items_pushSome cursors
        (nextCursor ctx plan.advance.toInclusive.tick cursor)
      have hremaining : remaining plan.advance.toInclusive.tick.value (ctx.cursors.items
          (ctx.cursors.pushSome cursors
            (nextCursor ctx plan.advance.toInclusive.tick cursor))) + 1 ≤
          cursor.recurrence.dueCount plan.advance.toInclusive.tick.value +
            remaining plan.advance.toInclusive.tick.value (ctx.cursors.items cursors) := by
        rw [remaining, (hpushed.map _).sum_eq, List.map_append, List.sum_append, ← remaining,
          ← remaining]
        cases hcase : nextCursor ctx plan.advance.toInclusive.tick cursor with
        | none =>
          simp only [remaining, Option.toList_none, List.map_nil, List.sum_nil]
          omega
        | some c' =>
          have := (hcursor.next_fits hcase).2
          simp only [remaining, Option.toList_some, List.map_cons, List.map_nil,
            List.sum_cons, List.sum_nil]
          omega
      refine ih (loop.afterRound plan cursor cursors ordinal signalId moved) ?_ ?_ ?_
      · intro c hc
        rw [AdvanceLoop.afterRound, hnext, hpushed.mem_iff, List.mem_append,
          Option.mem_toList] at hc
        rcases hc with hc | hc
        · exact (hcursor.next_fits hc).1
        · exact hfits c (hitems.mem_iff.2 (List.mem_cons_of_mem _ hc))
      · dsimp only [AdvanceLoop.afterRound]
        rw [hnext]
        rw [← remaining] at hroom
        omega
      · dsimp only [AdvanceLoop.afterRound]
        rw [hnext, List.length_append, List.length_singleton]
        rw [← remaining] at hpending
        omega

end Loop

/-! ## The advance succeeds -/

/-- The occurrences that are due in a generation when its clock moves to a tick. -/
def InMemoryScheduleStore.dueOccurrences (s : InMemoryScheduleStore)
    (generation : ScheduleGeneration) (upto : Nat) : Nat :=
  ((s.activeSchedules generation).map fun r =>
    (r.recurrence.map fun R => R.dueCount upto).getD 0).sum

section Whole

variable {plan : AdvancePlan} {loop : AdvanceLoop ctx}

variable (ctx) in
/-- The queue starts with what is due. -/
theorem remaining_start (hplan : plan.Sound) :
    remaining plan.advance.toInclusive.tick.value
        (ctx.cursors.items (plan.start ctx).cursors) =
      (plan.active.map fun r =>
        (r.recurrence.map fun R =>
          R.dueCount plan.advance.toInclusive.tick.value).getD 0).sum := by
  have hlive := hplan.live
  rw [AdvancePlan.start, remaining, ((ctx.cursors.items_ofList _).map _).sum_eq,
    AdvancePlan.dueCursors]
  generalize plan.active = active at hlive ⊢
  induction active with
  | nil => rfl
  | cons r rest ih =>
    obtain ⟨R, hR, hliveR⟩ := hlive r (List.mem_cons_self ..)
    have hrest := ih fun q hq => hlive q (List.mem_cons_of_mem _ hq)
    rw [List.map_cons, List.sum_cons, ← hrest, hR, Option.map_some, Option.getD_some]
    cases hcursor : dueCursor plan.advance.toInclusive.tick r with
    | none =>
      have hzero : R.dueCount plan.advance.toInclusive.tick.value = 0 := by
        rcases Nat.eq_zero_or_pos (R.dueCount plan.advance.toInclusive.tick.value) with h | h
        · exact h
        · obtain ⟨-, next, -, hRe⟩ := recurrence_eq_some hR
          let c : AdvanceCursor :=
            { schedule := r, dueTick := next, ordinal := r.occurrences, completed := false }
          have hc := (dueCursor_eq_some_iff hR (c := c)).2
            ⟨(Recurrence.dueCount_pos_iff hliveR).1 h, rfl, hRe.symm, rfl⟩
          rw [hc] at hcursor
          cases hcursor
      rw [List.filterMap_cons_none hcursor, hzero, Nat.zero_add]
    | some c =>
      obtain ⟨-, -, hrec, -⟩ := (dueCursor_eq_some_iff hR).1 hcursor
      rw [List.filterMap_cons_some hcursor, List.map_cons, List.sum_cons, hrec]

/-- Cursors at schedules that fit fit. -/
theorem fits_start (hplan : plan.Sound)
    (hfits : ∀ r ∈ plan.active, r.Fits ctx.limits plan.advance.toInclusive.tick.value)
    {c : AdvanceCursor} (hc : c ∈ ctx.cursors.items (plan.start ctx).cursors) :
    c.Fits ctx plan.advance.toInclusive.tick.value := by
  obtain ⟨r, hr, hcursor⟩ := mem_start.1 hc
  obtain ⟨R, hR, hlive⟩ := hplan.live r hr
  obtain ⟨hle, -, hrec, -⟩ := (dueCursor_eq_some_iff hR).1 hcursor
  have hdue := (Recurrence.dueCount_pos_iff hlive).2 hle
  have hmade : c.ordinal.value = r.occurrences.value := by
    obtain ⟨-, next, -, hRe⟩ := recurrence_eq_some hR
    exact (congrArg Recurrence.made (hrec.trans hRe))
  have hordinal := (hfits r hr).ordinal R hR hdue
  refine ⟨hrec ▸ hlive, hrec ▸ hdue, ?_, fun Q hQ => (hfits r hr).next R Q hR hdue (hrec ▸ hQ)⟩
  rw [hrec, hmade]
  exact hordinal

/-- A loop that made what is due at schedules that fit can be committed. -/
theorem commitAdvance_succeeds (hs : s.Sound ctx) (hf : s.Fenced)
    (hready : AdvanceReady ctx plan loop)
    (hactive : s.activeSchedules plan.advance.partition = plan.active)
    (hclock : s.clocks.get? plan.advance.partition = plan.clock)
    (hfirst : s.nextOccurrenceKey = plan.firstOccurrenceKey)
    (hfits : ∀ r ∈ plan.active, r.Fits ctx.limits plan.advance.toInclusive.tick.value) :
    ∃ answer, s.commitAdvance ctx plan loop = .ok answer := by
  obtain ⟨popped, hruns⟩ := hready.runs
  have hplan := plan_sound hs hactive
  have hupdates : ∀ v ∈ loop.finalBySchedule.values, ∃ q, s.scheduleUpdate ctx plan v = .ok q := by
    intro v hv
    obtain ⟨k, hk⟩ := OrderedMap.mem_values.1 hv
    obtain ⟨r, hr, -, R, hR, hdue, hends⟩ := hruns.endsAt hplan hk
    obtain rfl := hends.schedule
    obtain ⟨hget, -⟩ := hs.active (hactive ▸ hr)
    have hsound := hs.schedule _ _ hget
    have hrevision := (hfits _ hr).revision R hR hdue
    have hopen := hf.open_of_active hget (recurrence_eq_some hR).1
    have hincrement : incrementScheduleDecimal v.schedule.revision ctx.limits.maxCounterDigits
        "revision" = .ok (.ofNat (v.schedule.revision.value + 1)) :=
      (incrementScheduleDecimal_eq_ok_iff ctx.maxCounterDigits_pos).2
        ⟨Decimal.value_ofNat _, hrevision⟩
    simp only [scheduleUpdate, laterScheduleTimestamp, validateScheduleTimestamp, require, hopen,
      hget, hincrement, hsound.updatedAt, hready.accepted.recordedAt, bind, Except.bind,
      decide_true, if_true]
    exact ⟨_, rfl⟩
  obtain ⟨updates, hmapM⟩ := exists_mapM_eq_ok hupdates
  simp only [commitAdvance, hmapM, hclock, hactive, hfirst, require, bind, Except.bind, decide_true,
    Bool.and_self, if_true]
  exact ⟨_, rfl⟩

end Whole

/-- An advance that was made shows that its schedules fit. -/
theorem fits_of_commit {plan : AdvancePlan} {loop : AdvanceLoop ctx} {result : ScheduleAdvanceResult}
    (hs : s.Sound ctx) (hready : AdvanceReady ctx plan loop)
    (h : s.commitAdvance ctx plan loop = .ok (result, s')) {r : GameScheduleRecord}
    (hr : r ∈ plan.active) : r.Fits ctx.limits plan.advance.toInclusive.tick.value := by
  simp only [commitAdvance, bind_eq_ok, require_eq_ok, Bool.and_eq_true, decide_eq_true_eq,
    mapM_eq_ok_iff] at h
  obtain ⟨updates, hupdates, _, -, _, ⟨-, hactive⟩, -⟩ := h
  obtain ⟨popped, hruns⟩ := hready.runs
  have hplan := plan_sound hs hactive
  obtain ⟨R, hR, hlive⟩ := hplan.live r hr
  -- the last cursor of a schedule that is due
  have hlast : 0 < R.dueCount plan.advance.toInclusive.tick.value →
      r.occurrences.value + R.dueCount plan.advance.toInclusive.tick.value <
          10 ^ ctx.limits.maxCounterDigits ∧
        ∀ Q, R.advance plan.advance.toInclusive.tick.value = some Q →
          Q.next < 10 ^ ctx.limits.maxTickDigits := by
    intro hdue
    obtain ⟨j, hj⟩ := Nat.exists_eq_add_of_lt hdue
    rw [Nat.zero_add] at hj
    have hdue' : R.Due plan.advance.toInclusive.tick.value j :=
      (Recurrence.lt_dueCount_iff hlive).1 (by omega)
    obtain ⟨c, hc, hschedule, hrec⟩ := hruns.popped_of_due hr hR hlive hdue'
    obtain ⟨moved, hmoved⟩ := hruns.moved hc
    have hlivec := hdue'.live hlive
    rw [← hrec] at hlivec
    have hspec := advanceCursor_spec hlivec hmoved
    obtain ⟨hordinal, hnext⟩ := fits_of_moved hmoved
    obtain ⟨-, next, -, hRe⟩ := recurrence_eq_some hR
    have hmade : c.ordinal.value = R.made + j := congrArg Recurrence.made hrec
    have htick : c.dueTick.value = R.next + j * R.step := congrArg Recurrence.next hrec
    have hmadeR : R.made = r.occurrences.value := by rw [hRe]
    have hstep : c.schedule.step = R.step := by rw [hschedule, hRe]
    refine ⟨by omega, fun Q hQ => ?_⟩
    obtain ⟨hend, rfl⟩ := Recurrence.advance_eq_some_iff.1 hQ
    have hcompleted : moved.completed = false := by
      rw [Bool.eq_false_iff]
      intro hc
      have hb := hspec.completed.1 hc
      rw [hrec] at hb
      refine hend (hb.trans ?_)
      rw [hj]
      rfl
    have hfits := hnext hcompleted
    rw [htick, hstep] at hfits
    rw [hj, Recurrence.after, Nat.succ_mul, ← Nat.add_assoc]
    exact hfits
  refine ⟨fun R' hR' hdue => ?_, fun R' hR' hdue => ?_, fun R' Q hR' hdue hQ => ?_⟩
  · rw [hR, Option.some.injEq] at hR'
    subst hR'
    obtain ⟨_, -, -, -, hrevision⟩ := update_of_due hplan hruns hupdates hr hR hlive hdue
    exact hrevision
  · rw [hR, Option.some.injEq] at hR'
    subst hR'
    exact (hlast hdue).1
  · rw [hR, Option.some.injEq] at hR'
    subst hR'
    exact (hlast hdue).2 Q hQ

/-! ## When an advance succeeds -/

/-- An advance from the clock of its generation that is new and respects the limits. -/
structure ForwardAdvance (ctx : ScheduleContext) (s : InMemoryScheduleStore)
    (input : ScheduleAdvanceDraft String) (advance : ScheduleAdvanceDraft Decimal)
    (maxGenerated maxPending : Nat) : Prop where
  accepted : normalizeScheduleAdvance input ctx.limits = .ok advance
  fresh : s.advances.get? advance.key = none
  fromClock : s.clocks.get? advance.partition = some advance.fromExclusive.tick
  generatedLimit : validateSchedulePageLimit maxGenerated ctx.limits.maxOccurrencesPerAdvance
    "invalid_schedule_advance_limit" = .ok ()
  pendingLimit : validateSchedulePageLimit maxPending
    ctx.limits.maxPendingOccurrencesPerTimelineGeneration "invalid_pending_occurrence_limit" = .ok ()
  generated : s.dueOccurrences advance.partition advance.toInclusive.tick.value ≤ maxGenerated
  pending : (s.pendingOccurrences advance.partition).length +
    s.dueOccurrences advance.partition advance.toInclusive.tick.value ≤ maxPending

/-- Every active schedule is due after the clock of its generation. -/
theorem InMemoryScheduleStore.Sound.due_after_clock (hs : s.Sound ctx)
    {generation : ScheduleGeneration} {clock : Decimal}
    (hclock : s.clocks.get? generation = some clock) {r : GameScheduleRecord}
    (hr : r ∈ s.activeSchedules generation) :
    ∃ next, r.nextDueTick = some next ∧ clock.value < next.value := by
  obtain ⟨hget, hgeneration, R, hR, -⟩ := hs.active hr
  obtain ⟨-, next, hnext, hRe⟩ := recurrence_eq_some hR
  have hlt := hs.clock _ r R clock hget hR (hgeneration ▸ hclock)
  rw [hRe] at hlt
  exact ⟨next, hnext, hlt⟩

section Advance

variable {input : ScheduleAdvanceDraft String} {advance : ScheduleAdvanceDraft Decimal}
  {maxGenerated maxPending : Nat} {newSignalId : IdentifierSource}

/-- The checks before the loop pass. -/
theorem ForwardAdvance.planAdvance_eq (h : ForwardAdvance ctx s input advance maxGenerated maxPending)
    (hs : s.Sound ctx) : ∃ plan, s.planAdvance advance = .ok plan := by
  have hlater : ((s.activeSchedules advance.partition).all fun schedule =>
      !schedule.nextDueTick.any fun nextDueTick =>
        scheduleDecimalLe nextDueTick advance.fromExclusive.tick) = true := by
    rw [List.all_eq_true]
    intro r hr
    obtain ⟨next, hnext, hlt⟩ := hs.due_after_clock h.fromClock hr
    rw [hnext, Option.any_some, Bool.not_eq_true', ← Bool.not_eq_true, scheduleDecimalLe_iff]
    omega
  simp only [planAdvance, h.fromClock, hlater, require, Option.all_some, decide_true, if_true, bind,
    Except.bind]
  exact ⟨_, rfl⟩

theorem IdentifierSource.Answers.keeps (h : newSignalId.Answers ctx) :
    newSignalId.Keeps fun u u' => u' = u :=
  fun n u => (h.ends n u).mono (fun _ _ h => h.1) fun _ _ h => h.elim

theorem ForwardAdvance.succeeds (h : ForwardAdvance ctx s input advance maxGenerated maxPending)
    (hs : s.Sound ctx) (hf : s.Fenced) (hhost : newSignalId.Answers ctx)
    (hfits : ∀ r ∈ s.activeSchedules advance.partition,
      r.Fits ctx.limits advance.toInclusive.tick.value) :
    ∃ result, (respond (InMemoryScheduleStore.advance ctx input maxGenerated maxPending
      newSignalId) s).1 = .ok result := by
  obtain ⟨plan, hplan⟩ := h.planAdvance_eq hs
  obtain ⟨rfl, hactive, hclock, hpending, hfirst, hclocks, hlater⟩ := planAdvance_spec hplan
  have haccepted := (normalizeScheduleAdvance_spec h.accepted).1
  have hsound := plan_sound hs hactive.symm
  rw [← hactive] at hfits
  have hupto : plan.advance.toInclusive.tick.value < 10 ^ ctx.limits.maxTickDigits :=
    (Decimal.length_le_iff _ ctx.maxTickDigits_pos).1 haccepted.toInclusive
  have hremaining := remaining_start ctx hsound
  have hdue : remaining plan.advance.toInclusive.tick.value
      (ctx.cursors.items (plan.start ctx).cursors) =
        s.dueOccurrences plan.advance.partition plan.advance.toInclusive.tick.value := by
    rw [hremaining, hactive, dueOccurrences]
  have hgenerated := h.generated
  have hpendingLimit := h.pending
  rw [← hpending] at hpendingLimit
  have hroom : plan.pending + (plan.start ctx).generated.length +
      remaining plan.advance.toInclusive.tick.value
        (ctx.cursors.items (plan.start ctx).cursors) ≤ maxPending := by
    rw [hdue, AdvancePlan.start, List.length_nil]
    omega
  have hloop := (advanceLoop_succeeds hhost hupto maxGenerated (plan.start ctx) s
    (fun c => fits_start hsound hfits) (by omega) hroom).and
      (advanceLoop_ends (R := fun u u' => u' = u) (fun _ => rfl)
        (fun a b c hab hbc => hbc.trans hab) hhost.keeps maxGenerated (plan.start ctx) s)
  have hends : Ends (InMemoryScheduleStore.advance ctx input maxGenerated maxPending newSignalId) s
      (fun _ _ => True) fun _ _ => False := by
    rw [InMemoryScheduleStore.advance, h.generatedLimit, h.pendingLimit, h.accepted]
    simp only [ends_bind, ends_attempt_ok, ends_get, h.fresh, hplan]
    refine hloop.mono ?_ fun _ _ h => h.1
    rintro loop _ ⟨rfl, -, popped, -, hruns⟩
    have hready : AdvanceReady ctx plan loop := ⟨haccepted, hclocks, hlater, popped, hruns⟩
    obtain ⟨answer, hanswer⟩ :=
      commitAdvance_succeeds hs hf hready hactive.symm hclock.symm hfirst.symm hfits
    rw [method, ends_bind, ends_get, ends_bind, hanswer, ends_attempt_ok]
    trivial
  cases hresult : (respond (InMemoryScheduleStore.advance ctx input maxGenerated maxPending
      newSignalId) s).1 with
  | ok result => exact ⟨result, rfl⟩
  | error e => exact (hends.respond.2 e hresult).elim

theorem ForwardAdvance.fits (h : ForwardAdvance ctx s input advance maxGenerated maxPending)
    (hs : s.Sound ctx) (hhost : newSignalId.Answers ctx) {result : ScheduleAdvanceResult}
    (hresult : (respond (InMemoryScheduleStore.advance ctx input maxGenerated maxPending
      newSignalId) s).1 = .ok result) {r : GameScheduleRecord}
    (hr : r ∈ s.activeSchedules advance.partition) :
    r.Fits ctx.limits advance.toInclusive.tick.value := by
  obtain ⟨advance', hadvance', hcase⟩ := (advance_ends (R := fun u u' => u' = u) (fun _ => rfl)
    (fun a b c hab hbc => hbc.trans hab) hhost.keeps input maxGenerated maxPending).respond.1
      result hresult
  rw [h.accepted, Except.ok.injEq] at hadvance'
  subst hadvance'
  rcases hcase with ⟨existing, hexisting, -⟩ | ⟨-, plan, loop, t, hplan, hready, ht, hcommit⟩
  · rw [h.fresh] at hexisting
    cases hexisting
  · subst ht
    obtain ⟨rfl, hactive, -⟩ := planAdvance_spec hplan
    exact fits_of_commit hs hready hcommit (hactive ▸ hr)

end Advance

/-- In every reachable store the active schedules of a generation are due after its clock;
and an advance from that clock that respects the limits succeeds exactly when every active
schedule of the generation fits the tick it moves to. -/
theorem advance_succeeds_iff (hs : ScheduleRun ctx .empty s) :
    (∀ generation clock, s.clocks.get? generation = some clock →
      ∀ r ∈ s.activeSchedules generation,
        ∃ next, r.nextDueTick = some next ∧ clock.value < next.value) ∧
    ∀ input advance maxGenerated maxPending newSignalId,
      ForwardAdvance ctx s input advance maxGenerated maxPending →
        IdentifierSource.Answers ctx newSignalId →
          ((∃ result, (respond (InMemoryScheduleStore.advance ctx input maxGenerated maxPending
              newSignalId) s).1 = .ok result) ↔
            ∀ r ∈ s.activeSchedules advance.partition,
              r.Fits ctx.limits advance.toInclusive.tick.value) := by
  have hsound := hs.sound empty_sound
  have hfenced := hs.path.fenced empty_sound empty_fenced
  constructor
  · exact fun generation clock hclock r hr => hsound.due_after_clock hclock hr
  · intro input advance maxGenerated maxPending newSignalId h hhost
    constructor
    · rintro ⟨result, hresult⟩ r hr
      exact h.fits hsound hhost hresult hr
    · exact h.succeeds hsound hfenced hhost

/-! ## Two fields -/

/-- Advancing a field is a call. -/
theorem farm_run (h : ScheduleRun smallContext .empty s) (input : ScheduleAdvanceDraft String) :
    ScheduleRun smallContext .empty (farm s input).2 := by
  have hcall := h.call (.advance input 4 4 oneSignal) fun _ u => .refl u
  have hsame := ends_ignore (P := fun u => u = (farm s input).2) (ends_respond.2 rfl)
  exact ends_respond.1 hsame ▸ hcall

theorem oneSignal_answers : oneSignal.Answers smallContext :=
  fun _ _ => ⟨"s", rfl, by decide +kernel⟩

/-- The harvest at tick 5 succeeds, so the field fits. -/
theorem advance_succeeds_iff_harvest :
    ∃ s, ForwardAdvance smallContext s (days "b" "2" "5") (days "b" (.ofNat 2) (.ofNat 5)) 4 4 ∧
      ∀ r ∈ s.activeSchedules field.toScheduleGeneration, r.Fits smallContext.limits 5 := by
  have hforward : ForwardAdvance smallContext (farm sown (days "a" "0" "2")).2
      (days "b" "2" "5") (days "b" (.ofNat 2) (.ofNat 5)) 4 4 :=
    ⟨rfl, by decide +kernel, by decide +kernel, by decide +kernel, by decide +kernel,
      by decide +kernel, by decide +kernel⟩
  have hanswers : (farm (farm sown (days "a" "0" "2")).2 (days "b" "2" "5")).1.isOk = true := by
    decide +kernel
  have hfits := (((advance_succeeds_iff (farm_run sown_run (days "a" "0" "2"))).2 _ _ _ _ _
    hforward oneSignal_answers).1 (isOk_iff.1 hanswers))
  have hvalue : (days "b" (Decimal.ofNat 2) (.ofNat 5)).toInclusive.tick.value = 5 :=
    Decimal.value_ofNat 5
  rw [hvalue] at hfits
  exact ⟨_, hforward, hfits⟩

/-- A field that is due at tick 9 and then at every tick, after the first day. -/
def overripe : InMemoryScheduleStore :=
  (farm (respond ((ScheduleCall.create (harvest field "9" "1") 4).run smallContext) .empty).2
    (days "a" "0" "1")).2

/-- Tick 9 can be written and is the only occurrence that is due, but tick 10 cannot: the
clock of the field stands still. -/
theorem overripe_stops_clock :
    ScheduleRun smallContext .empty overripe ∧
      ForwardAdvance smallContext overripe (days "b" "1" "9") (days "b" (.ofNat 1) (.ofNat 9)) 4 4 ∧
      oneSignal.Answers smallContext ∧
      (respond (InMemoryScheduleStore.advance smallContext (days "b" "1" "9") 4 4 oneSignal)
        overripe).1 = .error (.validation "schedule_tick_overflow") := by
  refine ⟨farm_run (.call (.create (harvest field "9" "1") 4) (.refl _) fun _ u => .refl u) _,
    ⟨rfl, ?_, ?_, ?_, ?_, ?_, ?_⟩, oneSignal_answers, rfl⟩
  all_goals decide +kernel

end OpenGameAgent
