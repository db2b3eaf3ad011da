import OpenGameAgent.Extensions.InMemoryScheduleStore
import OpenGameAgent.Library.Recurrence

/-!
# What one advance makes

The loop of `InMemoryScheduleStore.advance` pops the cursor that is due first, makes its
occurrence and puts it back while it is still due.  Each cursor stands for a recurrence;
a round makes one occurrence of it.

* `LoopRuns` — the rounds of the loop with the cursors they popped; `advanceLoop_ends`
  says the loop, whatever the host does in between, makes such rounds or throws.
* `LoopRuns.drains` — the rounds drain the queue of `ctx.cursors`.
* `mem_popped_iff` — the popped cursors are the due occurrences of the active schedules.
* `final_spec` — the cursor a schedule ends with is where its recurrence is left.
-/

namespace OpenGameAgent

open InMemoryScheduleStore

/-! ## Schedules as recurrences -/

/-- The interval of a schedule; a schedule that occurs once does not move. -/
def GameScheduleDraft.step (schedule : GameScheduleDraft Decimal) : Nat :=
  (schedule.intervalTicks.map Decimal.value).getD 0

def GameScheduleDraft.bound (schedule : GameScheduleDraft Decimal) : Option Nat :=
  schedule.maximumOccurrences.map Decimal.value

/-- What an active schedule has to come. -/
def GameScheduleRecord.recurrence (r : GameScheduleRecord) : Option Recurrence :=
  if r.status = .active then
    r.nextDueTick.map fun next =>
      { next := next.value, step := r.step, made := r.occurrences.value, bound := r.bound }
  else none

/-- What a cursor has to come. -/
def AdvanceCursor.recurrence (c : AdvanceCursor) : Recurrence where
  next := c.dueTick.value
  step := c.schedule.step
  made := c.ordinal.value
  bound := c.schedule.bound

theorem ScheduleContext.named_pos (ctx : ScheduleContext) (name : String) {value : Nat}
    (h : (name, value) ∈ ctx.limits.named) : 0 < value :=
  (validateLimitNames_eq_ok_iff.1 ctx.limitsValid _ h).1

theorem ScheduleContext.maxTickDigits_pos (ctx : ScheduleContext) :
    0 < ctx.limits.maxTickDigits :=
  ctx.named_pos "maxTickDigits" (by simp [ScheduleLimits.named])

theorem ScheduleContext.maxCounterDigits_pos (ctx : ScheduleContext) :
    0 < ctx.limits.maxCounterDigits :=
  ctx.named_pos "maxCounterDigits" (by simp [ScheduleLimits.named])

variable {ctx : ScheduleContext}

/-! ## One round -/

/-- The cursor of a round when it is counted and moved. -/
def advanceCursor (ctx : ScheduleContext) (cursor : AdvanceCursor) :
    Except ScheduleError AdvanceCursor := do
  let ordinal ←
    incrementScheduleDecimal cursor.ordinal ctx.limits.maxCounterDigits "occurrences"
  moveCursor ctx { cursor with ordinal := ordinal }

/-- The cursor that is put back after a round at a cursor. -/
def nextCursor (ctx : ScheduleContext) (toInclusive : Decimal) (cursor : AdvanceCursor) :
    Option AdvanceCursor :=
  match advanceCursor ctx cursor with
  | .ok moved => requeued toInclusive moved
  | .error _ => none

/-- A cursor that was moved stands behind the occurrence that was made. -/
structure AdvanceCursor.MovedTo (c moved : AdvanceCursor) : Prop where
  schedule : moved.schedule = c.schedule
  ordinal : moved.ordinal.value = c.ordinal.value + 1
  completed : moved.completed = true ↔ c.recurrence.bound = some (c.recurrence.made + 1)
  dueTick : moved.completed = false → moved.recurrence = c.recurrence.after 1

/-- When the bound of a live recurrence is reached. -/
theorem completes_iff {c : AdvanceCursor} (hlive : c.recurrence.Live) {ordinal : Decimal}
    (hordinal : ordinal.value = c.ordinal.value + 1) :
    (c.schedule.maximumOccurrences.any fun maximum => scheduleDecimalLe maximum ordinal) = true ↔
      c.recurrence.bound = some (c.recurrence.made + 1) := by
  have hroom := hlive.room
  simp only [AdvanceCursor.recurrence, GameScheduleDraft.bound] at hroom ⊢
  cases hmax : c.schedule.maximumOccurrences with
  | none => simp
  | some m =>
    rw [hmax] at hroom
    have hlt := hroom m.value rfl
    simp only [Option.any_some, scheduleDecimalLe_iff, hordinal, Option.map_some,
      Option.some.injEq]
    omega

theorem moveCursor_spec {c moved : AdvanceCursor} (hlive : c.recurrence.Live) {ordinal : Decimal}
    (hordinal : ordinal.value = c.ordinal.value + 1)
    (h : moveCursor ctx { c with ordinal := ordinal } = .ok moved) : c.MovedTo moved := by
  have hcompletes := completes_iff hlive hordinal
  unfold moveCursor at h
  dsimp only at h
  cases hany : c.schedule.maximumOccurrences.any fun maximum => scheduleDecimalLe maximum ordinal
  · rw [hany] at h hcompletes
    cases hinterval : c.schedule.intervalTicks with
    | some intervalTicks =>
      rw [hinterval] at h
      simp only [bind_eq_ok, return_eq_ok,
        addScheduleDecimals_eq_ok_iff ctx.maxTickDigits_pos] at h
      obtain ⟨dueTick, ⟨htick, -⟩, rfl⟩ := h
      refine ⟨rfl, hordinal, hcompletes, fun _ => ?_⟩
      simp only [AdvanceCursor.recurrence, Recurrence.after, htick, hordinal, Nat.one_mul,
        GameScheduleDraft.step, hinterval, Option.map_some, Option.getD_some]
    | none =>
      -- a recurrence that does not move has one occurrence left
      have hstep : c.recurrence.step = 0 := by
        simp [AdvanceCursor.recurrence, GameScheduleDraft.step, hinterval]
      have hbound := hlive.moves.resolve_left (by omega)
      exact absurd (hcompletes.2 hbound) Bool.false_ne_true
  · rw [hany] at h hcompletes
    cases h
    exact ⟨rfl, hordinal, ⟨fun _ => hcompletes.1 rfl, fun _ => rfl⟩, fun hc => by cases hc⟩

theorem advanceCursor_spec {c moved : AdvanceCursor} (hlive : c.recurrence.Live)
    (h : advanceCursor ctx c = .ok moved) : c.MovedTo moved := by
  simp only [advanceCursor, bind_eq_ok,
    incrementScheduleDecimal_eq_ok_iff ctx.maxCounterDigits_pos] at h
  obtain ⟨ordinal, ⟨hordinal, -⟩, h⟩ := h
  exact moveCursor_spec hlive hordinal h

/-- The cursor that is put back has the rest of the recurrence to come. -/
theorem nextCursor_spec {c c' : AdvanceCursor} {upto : Decimal} (hlive : c.recurrence.Live)
    (h : nextCursor ctx upto c = some c') :
    c'.schedule = c.schedule ∧ c'.recurrence = c.recurrence.after 1 ∧
      c'.recurrence.Live ∧ c.recurrence.Due upto.value 1 := by
  unfold nextCursor at h
  cases hmoved : advanceCursor ctx c with
  | error e =>
    rw [hmoved] at h
    cases h
  | ok moved =>
    rw [hmoved] at h
    have hspec := advanceCursor_spec hlive hmoved
    dsimp only at h
    unfold requeued at h
    split at h
    · rename_i hgo
      cases h
      rw [Bool.and_eq_true, Bool.not_eq_true', scheduleDecimalLe_iff] at hgo
      obtain ⟨hcompleted, hle⟩ := hgo
      have hrest := hspec.dueTick hcompleted
      have hend : c.recurrence.bound ≠ some (c.recurrence.made + 1) := fun hc => by
        rw [← hspec.completed, hcompleted] at hc
        cases hc
      have hnext : c.recurrence.next + 1 * c.recurrence.step ≤ upto.value := by
        have hnext' := congrArg Recurrence.next hrest
        simp only [Recurrence.after] at hnext'
        rw [← hnext']
        exact hle
      have hdue : c.recurrence.Due upto.value 1 := by
        refine ⟨hnext, fun b hb => ?_⟩
        have := hlive.room b hb
        have hne : b ≠ c.recurrence.made + 1 := fun hc => hend (hc ▸ hb)
        omega
      refine ⟨hspec.schedule, hrest, ?_, hdue⟩
      rw [hrest]
      exact Recurrence.live_after hlive
        (Nat.le_of_lt ((Recurrence.lt_dueCount_iff hlive).2 hdue)) hend
    · cases h

/-- A cursor that is not put back is where its recurrence is left. -/
theorem last_spec {c moved : AdvanceCursor} {upto : Decimal} (hlive : c.recurrence.Live)
    (hmoved : advanceCursor ctx c = .ok moved) (hlast : nextCursor ctx upto c = none) :
    ¬ c.recurrence.Due upto.value 1 := by
  have hspec := advanceCursor_spec hlive hmoved
  unfold nextCursor at hlast
  rw [hmoved] at hlast
  dsimp only at hlast
  unfold requeued at hlast
  intro hdue
  have hend : moved.completed = false := by
    rw [Bool.eq_false_iff]
    intro hc
    have := hdue.room _ (hspec.completed.1 hc)
    omega
  have hle : moved.dueTick.value ≤ upto.value := by
    have hnext := congrArg Recurrence.next (hspec.dueTick hend)
    simp only [Recurrence.after] at hnext
    rw [show moved.dueTick.value = moved.recurrence.next from rfl, hnext]
    exact hdue.tick
  rw [if_pos (by rw [hend, Bool.not_false, Bool.true_and, scheduleDecimalLe_iff]; exact hle)]
    at hlast
  cases hlast

/-! ## The loop -/

/-- The loop after a round at a cursor. -/
def InMemoryScheduleStore.AdvanceLoop.afterRound (loop : AdvanceLoop ctx) (plan : AdvancePlan) (cursor : AdvanceCursor)
    (cursors : ctx.cursors.Queue) (ordinal : Decimal) (signalId : String)
    (moved : AdvanceCursor) : AdvanceLoop ctx where
  cursors := ctx.cursors.pushSome cursors (requeued plan.advance.toInclusive.tick moved)
  generated := loop.generated ++
    [occurrenceRecord plan.advance { cursor with ordinal := ordinal } loop.occurrenceKey signalId]
  finalBySchedule := loop.finalBySchedule.set cursor.schedule.scheduleKey moved
  occurrenceKey := loop.occurrenceKey + 1

/-- The rounds of a loop, with the cursors they popped. -/
inductive LoopRuns (plan : AdvancePlan) :
    AdvanceLoop ctx → List AdvanceCursor → AdvanceLoop ctx → Prop where
  | done {loop : AdvanceLoop ctx} : ctx.cursors.pop loop.cursors = none → LoopRuns plan loop [] loop
  | round {loop out : AdvanceLoop ctx} {cursor moved : AdvanceCursor}
      {cursors : ctx.cursors.Queue} {ordinal : Decimal} {signalId : String}
      {popped : List AdvanceCursor} :
      ctx.cursors.pop loop.cursors = some (cursor, cursors) →
      incrementScheduleDecimal cursor.ordinal ctx.limits.maxCounterDigits "occurrences" =
        .ok ordinal →
      moveCursor ctx { cursor with ordinal := ordinal } = .ok moved →
      LoopRuns plan (loop.afterRound plan cursor cursors ordinal signalId moved) popped out →
      LoopRuns plan loop (cursor :: popped) out

/-- A relation between stores that a host's identifiers keep. -/
def IdentifierSource.Keeps (source : IdentifierSource)
    (R : InMemoryScheduleStore → InMemoryScheduleStore → Prop) : Prop :=
  ∀ n s, Ends (source n) s (fun _ s' => R s s') fun _ s' => R s s'

section Loop

variable {R : InMemoryScheduleStore → InMemoryScheduleStore → Prop} {plan : AdvancePlan}
  {maxPending : Nat} {newSignalId : IdentifierSource}

/-- Whatever the host does meanwhile, a loop that does not throw made rounds. -/
theorem advanceLoop_ends (hrefl : ∀ s, R s s) (htrans : ∀ a b c, R a b → R b c → R a c)
    (hsource : newSignalId.Keeps R) (room : Nat) (loop : AdvanceLoop ctx)
    (s : InMemoryScheduleStore) :
    Ends (advanceLoop ctx plan maxPending newSignalId room loop) s
      (fun out s' => R s s' ∧ ∃ popped, popped.length ≤ room ∧ LoopRuns plan loop popped out)
      fun _ s' => R s s' := by
  induction room generalizing loop s with
  | zero =>
    rw [advanceLoop]
    cases hpop : ctx.cursors.pop loop.cursors with
    | none => exact ⟨hrefl s, [], Nat.le_refl 0, .done hpop⟩
    | some pair => exact hrefl s
  | succ room ih =>
    rw [advanceLoop]
    cases hpop : ctx.cursors.pop loop.cursors with
    | none => exact ⟨hrefl s, [], Nat.zero_le _, .done hpop⟩
    | some pair =>
      obtain ⟨cursor, cursors⟩ := pair
      dsimp only
      rw [ends_bind, advanceRound, ends_bind, ends_attempt]
      refine ⟨fun _ _ => ?_, fun _ _ => hrefl s⟩
      rw [ends_bind, ends_attempt]
      refine ⟨fun ordinal hordinal => ?_, fun _ _ => hrefl s⟩
      rw [ends_bind]
      refine (hsource loop.generated.length s).mono (fun signalId t ht => ?_) fun _ t ht => ht
      rw [ends_bind, ends_attempt]
      refine ⟨fun _ _ => ?_, fun _ _ => ht⟩
      rw [ends_bind, ends_attempt]
      refine ⟨fun moved hmoved => ?_, fun _ _ => ht⟩
      rw [ends_pure]
      refine (ih (loop.afterRound plan cursor cursors ordinal signalId moved) t).mono ?_ ?_
      · rintro out s' ⟨hs', popped, hlen, hruns⟩
        exact ⟨htrans s t s' ht hs', cursor :: popped, Nat.succ_le_succ hlen,
          .round hpop hordinal hmoved hruns⟩
      · exact fun _ s' hs' => htrans s t s' ht hs'

end Loop

namespace LoopRuns

variable {plan : AdvancePlan} {loop out : AdvanceLoop ctx} {popped : List AdvanceCursor}

theorem advanceCursor_eq {cursor moved : AdvanceCursor} {ordinal : Decimal}
    (hordinal : incrementScheduleDecimal cursor.ordinal ctx.limits.maxCounterDigits "occurrences" =
      .ok ordinal) (hmoved : moveCursor ctx { cursor with ordinal := ordinal } = .ok moved) :
    advanceCursor ctx cursor = .ok moved :=
  bind_eq_ok.2 ⟨ordinal, hordinal, hmoved⟩

/-- The rounds drain the queue. -/
theorem drains (h : LoopRuns plan loop popped out) :
    ctx.cursors.Drains (nextCursor ctx plan.advance.toInclusive.tick) loop.cursors popped := by
  induction h with
  | done hpop => exact .done hpop
  | @round loop out cursor moved cursors ordinal signalId popped hpop hordinal hmoved _ ih =>
    refine .step hpop ?_
    have hnext : nextCursor ctx plan.advance.toInclusive.tick cursor =
        requeued plan.advance.toInclusive.tick moved := by
      rw [nextCursor, advanceCursor_eq hordinal hmoved]
    rw [hnext]
    exact ih

/-- Every popped cursor could be moved. -/
theorem moved (h : LoopRuns plan loop popped out) {c : AdvanceCursor} (hc : c ∈ popped) :
    ∃ moved, advanceCursor ctx c = .ok moved := by
  induction h with
  | done hpop => cases hc
  | round hpop hordinal hmoved _ ih =>
    rcases List.mem_cons.1 hc with rfl | hc
    · exact ⟨_, advanceCursor_eq hordinal hmoved⟩
    · exact ih hc

/-- The occurrence that was made at a popped cursor. -/
def Made (plan : AdvancePlan) (c : AdvanceCursor) (o : ScheduledOccurrenceRecord) : Prop :=
  ∃ ordinal occurrenceKey signalId, ordinal.value = c.ordinal.value + 1 ∧
    o = occurrenceRecord plan.advance { c with ordinal := ordinal } occurrenceKey signalId

/-- The occurrences are made in the order of the rounds. -/
theorem generated (h : LoopRuns plan loop popped out) :
    ∃ made, out.generated = loop.generated ++ made ∧ List.Forall₂ (Made plan) popped made ∧
      made.map (fun o => o.occurrenceKey) = List.range' loop.occurrenceKey popped.length ∧
      out.occurrenceKey = loop.occurrenceKey + popped.length := by
  induction h with
  | done hpop => exact ⟨[], (List.append_nil _).symm, .nil, rfl, rfl⟩
  | @round loop out cursor moved cursors ordinal signalId popped hpop hordinal hmoved _ ih =>
    obtain ⟨made, hmade, hall, hkeys, hkey⟩ := ih
    rw [incrementScheduleDecimal_eq_ok_iff ctx.maxCounterDigits_pos] at hordinal
    refine ⟨_ :: made, ?_, .cons ⟨ordinal, loop.occurrenceKey, signalId, hordinal.1, rfl⟩ hall,
      ?_, ?_⟩
    · rw [hmade, AdvanceLoop.afterRound, List.append_assoc]
      rfl
    · rw [List.map_cons, hkeys, AdvanceLoop.afterRound, List.length_cons, List.range'_succ]
      rfl
    · rw [hkey, List.length_cons]
      show loop.occurrenceKey + 1 + popped.length = loop.occurrenceKey + (popped.length + 1)
      omega

/-- What a schedule ends with is the cursor it was last popped at, moved. -/
theorem final (h : LoopRuns plan loop popped out) {k : Nat} {v : AdvanceCursor}
    (hv : out.finalBySchedule.get? k = some v) :
    (∃ before c behind, popped = before ++ c :: behind ∧ c.schedule.scheduleKey = k ∧
        advanceCursor ctx c = .ok v ∧ ∀ c' ∈ behind, c'.schedule.scheduleKey ≠ k) ∨
      (loop.finalBySchedule.get? k = some v ∧ ∀ c ∈ popped, c.schedule.scheduleKey ≠ k) := by
  induction h with
  | done hpop => exact Or.inr ⟨hv, by simp⟩
  | @round loop out cursor moved cursors ordinal signalId popped hpop hordinal hmoved _ ih =>
    rcases ih hv with ⟨before, c, behind, rfl, hk, hc, hbehind⟩ | ⟨hget, hnone⟩
    · exact Or.inl ⟨cursor :: before, c, behind, rfl, hk, hc, hbehind⟩
    · dsimp only [AdvanceLoop.afterRound] at hget
      by_cases hk : cursor.schedule.scheduleKey = k
      · subst hk
        rw [OrderedMap.get?_set_self, Option.some.injEq] at hget
        subst hget
        exact Or.inl ⟨[], cursor, popped, rfl, rfl, advanceCursor_eq hordinal hmoved, hnone⟩
      · rw [OrderedMap.get?_set_of_ne _ hk] at hget
        refine Or.inr ⟨hget, fun c hc => ?_⟩
        rcases List.mem_cons.1 hc with rfl | hc
        · exact hk
        · exact hnone c hc

/-- Every schedule that was popped ends with a cursor. -/
theorem final_of_mem (h : LoopRuns plan loop popped out) {k : Nat}
    (hk : loop.finalBySchedule.has k = true ∨ ∃ c ∈ popped, c.schedule.scheduleKey = k) :
    out.finalBySchedule.has k = true := by
  induction h with
  | done hpop =>
    rcases hk with hk | ⟨c, hc, -⟩
    · exact hk
    · cases hc
  | @round loop out cursor moved cursors ordinal signalId popped hpop hordinal hmoved _ ih =>
    refine ih ?_
    dsimp only [AdvanceLoop.afterRound]
    by_cases hcursor : cursor.schedule.scheduleKey = k
    · subst hcursor
      exact Or.inl (OrderedMap.has_iff.2 ⟨moved, OrderedMap.get?_set_self ..⟩)
    · rcases hk with hk | ⟨c, hc, hck⟩
      · obtain ⟨v, hv⟩ := OrderedMap.has_iff.1 hk
        exact Or.inl (OrderedMap.has_iff.2
          ⟨v, (OrderedMap.get?_set_of_ne _ hcursor _).trans hv⟩)
      · rcases List.mem_cons.1 hc with rfl | hc
        · exact absurd hck hcursor
        · exact Or.inr ⟨c, hc, hck⟩

end LoopRuns

/-! ## Whole runs of the loop -/

/-- What a plan's schedules satisfy: each has a live recurrence, under a key of its own. -/
structure InMemoryScheduleStore.AdvancePlan.Sound (plan : AdvancePlan) : Prop where
  live : ∀ r ∈ plan.active, ∃ R, r.recurrence = some R ∧ R.Live
  distinct : (plan.active.map fun r => r.scheduleKey).Nodup

/-- The order of `compareAdvanceCursors` on cursors of different schedules. -/
def AdvanceCursor.Before (a b : AdvanceCursor) : Prop :=
  a.dueTick.value < b.dueTick.value ∨
    a.dueTick.value = b.dueTick.value ∧ a.schedule.scheduleKey < b.schedule.scheduleKey

theorem AdvanceCursor.Before.trans {a b c : AdvanceCursor} (hab : a.Before b) (hbc : b.Before c) :
    a.Before c := by
  unfold AdvanceCursor.Before at hab hbc ⊢
  omega

theorem AdvanceCursor.Before.irrefl (a : AdvanceCursor) : ¬ a.Before a := by
  unfold AdvanceCursor.Before
  omega

theorem compareKeys_ne_gt {a b : Nat} : compareKeys a b ≠ .gt ↔ a ≤ b := by
  unfold compareKeys
  by_cases hlt : a < b
  · simp [hlt, Nat.le_of_lt hlt]
  · by_cases hgt : b < a
    · simp [hlt, hgt]
    · simp [hlt, hgt, not_lt.1 hgt]

theorem compareAdvanceCursors_ne_gt {a b : AdvanceCursor} :
    compareAdvanceCursors a b ≠ .gt ↔ a.dueTick.value < b.dueTick.value ∨
      a.dueTick.value = b.dueTick.value ∧ a.schedule.scheduleKey ≤ b.schedule.scheduleKey := by
  unfold compareAdvanceCursors
  rw [compareScheduleDecimals_eq]
  rcases Nat.lt_trichotomy a.dueTick.value b.dueTick.value with h | h | h
  · simp [Nat.compare_eq_lt.2 h, h]
  · simp [h, compareKeys_ne_gt]
  · simp [Nat.compare_eq_gt.2 h, Nat.le_of_lt h, Nat.ne_of_gt h]

section Whole

variable {plan : AdvancePlan} {out : AdvanceLoop ctx} {popped : List AdvanceCursor}

theorem recurrence_eq_some {r : GameScheduleRecord} {R : Recurrence} (h : r.recurrence = some R) :
    r.status = .active ∧ ∃ next, r.nextDueTick = some next ∧
      R = { next := next.value, step := r.step, made := r.occurrences.value, bound := r.bound } := by
  unfold GameScheduleRecord.recurrence at h
  split at h
  · rename_i hactive
    rw [Option.map_eq_some_iff] at h
    obtain ⟨next, hnext, rfl⟩ := h
    exact ⟨hactive, next, hnext, rfl⟩
  · cases h

theorem dueCursor_eq_some_iff {r : GameScheduleRecord} {R : Recurrence} {upto : Decimal}
    (hR : r.recurrence = some R) {c : AdvanceCursor} :
    dueCursor upto r = some c ↔ R.next ≤ upto.value ∧ c.schedule = r ∧ c.recurrence = R ∧
      c.completed = false := by
  obtain ⟨-, next, hnext, rfl⟩ := recurrence_eq_some hR
  unfold dueCursor
  rw [hnext, Option.map_eq_some_iff]
  simp only [Option.filter_eq_some_iff, Option.some.injEq, scheduleDecimalLe_iff]
  constructor
  · rintro ⟨tick, ⟨rfl, hle⟩, rfl⟩
    exact ⟨hle, rfl, rfl, rfl⟩
  · rintro ⟨hle, hschedule, hrec, hcompleted⟩
    refine ⟨next, ⟨rfl, hle⟩, ?_⟩
    have htick : c.dueTick = next := Decimal.value_injective (congrArg Recurrence.next hrec)
    have hmade : c.ordinal = r.occurrences := Decimal.value_injective (congrArg Recurrence.made hrec)
    cases c
    simp only at hschedule htick hmade hcompleted
    subst hschedule htick hmade hcompleted
    rfl

/-- What the queue holds at the start. -/
theorem mem_start {c : AdvanceCursor} :
    c ∈ ctx.cursors.items (plan.start ctx).cursors ↔
      ∃ r ∈ plan.active, dueCursor plan.advance.toInclusive.tick r = some c := by
  rw [AdvancePlan.start, (ctx.cursors.items_ofList _).mem_iff, AdvancePlan.dueCursors,
    List.mem_filterMap]

/-- A popped cursor is followed by its successor. -/
theorem LoopRuns.next_mem (h : LoopRuns plan (plan.start ctx) popped out) {c c' : AdvanceCursor}
    (hc : c ∈ popped) (hnext : nextCursor ctx plan.advance.toInclusive.tick c = some c') :
    c' ∈ popped := by
  rw [h.drains.mem_iff] at hc ⊢
  obtain ⟨start, hstart, hpath⟩ := hc
  exact ⟨start, hstart, hpath.tail hnext⟩

/-- What is popped is due. -/
theorem LoopRuns.due_of_popped (h : LoopRuns plan (plan.start ctx) popped out) (hplan : plan.Sound)
    {c : AdvanceCursor} (hc : c ∈ popped) :
    ∃ r ∈ plan.active, ∃ R k, r.recurrence = some R ∧ R.Live ∧
      R.Due plan.advance.toInclusive.tick.value k ∧ c.schedule = r ∧ c.recurrence = R.after k := by
  rw [h.drains.mem_iff] at hc
  obtain ⟨start, hstart, hpath⟩ := hc
  obtain ⟨r, hr, hcursor⟩ := mem_start.1 hstart
  obtain ⟨R, hR, hlive⟩ := hplan.live r hr
  obtain ⟨hle, hschedule, hrec, -⟩ := (dueCursor_eq_some_iff hR).1 hcursor
  refine ⟨r, hr, R, ?_⟩
  induction hpath with
  | refl =>
    exact ⟨0, hR, hlive, (Recurrence.lt_dueCount_iff hlive).1
      ((Recurrence.dueCount_pos_iff hlive).2 hle), hschedule, by rw [hrec, Recurrence.after_zero]⟩
  | tail _ hnext ih =>
    obtain ⟨k, -, -, hdue, hschedule, hrec⟩ := ih
    have hlivec := hdue.live hlive
    rw [← hrec] at hlivec
    obtain ⟨hs, hr', -, hdue'⟩ := nextCursor_spec hlivec hnext
    rw [hrec] at hr' hdue'
    exact ⟨k + 1, hR, hlive, Recurrence.due_after.1 hdue', hs.trans hschedule,
      hr'.trans (Recurrence.after_after 1)⟩

/-- What is due is popped. -/
theorem LoopRuns.popped_of_due (h : LoopRuns plan (plan.start ctx) popped out)
    {r : GameScheduleRecord} (hr : r ∈ plan.active) {R : Recurrence} (hR : r.recurrence = some R)
    (hlive : R.Live) {k : Nat} (hdue : R.Due plan.advance.toInclusive.tick.value k) :
    ∃ c ∈ popped, c.schedule = r ∧ c.recurrence = R.after k := by
  induction k with
  | zero =>
    obtain ⟨-, next, hnext, hRe⟩ := recurrence_eq_some hR
    let c : AdvanceCursor :=
      { schedule := r, dueTick := next, ordinal := r.occurrences, completed := false }
    have hc : c.recurrence = R := hRe.symm
    have htick : R.next ≤ plan.advance.toInclusive.tick.value := by
      have := hdue.tick
      omega
    refine ⟨c, ?_, rfl, by rw [hc, Recurrence.after_zero]⟩
    rw [h.drains.mem_iff]
    exact ⟨c, mem_start.2 ⟨r, hr, (dueCursor_eq_some_iff hR).2 ⟨htick, rfl, hc, rfl⟩⟩, .refl⟩
  | succ k ih =>
    have hdue' := hdue.of_succ hlive
    obtain ⟨c, hc, hschedule, hrec⟩ := ih hdue'
    have hlivec := hdue'.live hlive
    rw [← hrec] at hlivec
    obtain ⟨moved, hmoved⟩ := h.moved hc
    cases hnext : nextCursor ctx plan.advance.toInclusive.tick c with
    | none =>
      have hlast := last_spec hlivec hmoved hnext
      rw [hrec] at hlast
      exact absurd (Recurrence.due_after.2 hdue) hlast
    | some c' =>
      obtain ⟨hs, hr', -, -⟩ := nextCursor_spec hlivec hnext
      rw [hrec] at hr'
      exact ⟨c', h.next_mem hc hnext, hs.trans hschedule,
        hr'.trans (Recurrence.after_after 1)⟩

/-- The cursors are popped in order. -/
theorem LoopRuns.pairwise (h : LoopRuns plan (plan.start ctx) popped out) (hplan : plan.Sound) :
    popped.Pairwise AdvanceCursor.Before := by
  refine h.drains.pairwise (fun c => c.recurrence.Live) (fun c => c.schedule.scheduleKey)
    AdvanceCursor.Before (fun _ _ _ => AdvanceCursor.Before.trans) ?_ ?_ ?_ ?_
  · intro a b hle hne
    rw [compareAdvanceCursors_ne_gt] at hle
    unfold AdvanceCursor.Before
    omega
  · intro a b hlive hnext
    obtain ⟨hs, hr, hliveb, hdue⟩ := nextCursor_spec hlive hnext
    have hstep : 0 < a.recurrence.step := by
      rcases hlive.moves with hstep | hbound
      · exact hstep
      · exact absurd (hdue.room _ hbound) (lt_irrefl _)
    have htick : b.dueTick.value = a.dueTick.value + 1 * a.recurrence.step :=
      congrArg Recurrence.next hr
    refine ⟨hliveb, Or.inl (by omega), by rw [hs]⟩
  · intro c hc
    obtain ⟨r, hr, hcursor⟩ := mem_start.1 hc
    obtain ⟨R, hR, hlive⟩ := hplan.live r hr
    obtain ⟨-, -, hrec, -⟩ := (dueCursor_eq_some_iff hR).1 hcursor
    rw [hrec]
    exact hlive
  · rw [AdvancePlan.start, ((ctx.cursors.items_ofList _).map _).nodup_iff, AdvancePlan.dueCursors]
    have hsub : (plan.active.filterMap (dueCursor plan.advance.toInclusive.tick)).map
        (fun c => c.schedule.scheduleKey) =
          (plan.active.filter fun r =>
            (dueCursor plan.advance.toInclusive.tick r).isSome).map fun r => r.scheduleKey := by
      generalize plan.active = l
      induction l with
      | nil => rfl
      | cons r l ih =>
        cases hcursor : dueCursor plan.advance.toInclusive.tick r with
        | none =>
          rw [List.filterMap_cons_none hcursor, List.filter_cons_of_neg (by simp [hcursor]), ih]
        | some c =>
          have hschedule : c.schedule = r := by
            unfold dueCursor at hcursor
            rw [Option.map_eq_some_iff] at hcursor
            obtain ⟨tick, -, rfl⟩ := hcursor
            rfl
          rw [List.filterMap_cons_some hcursor, List.filter_cons_of_pos (by simp [hcursor]),
            List.map_cons, List.map_cons, ih, hschedule]
    rw [hsub]
    exact hplan.distinct.sublist (List.filter_sublist.map _)

/-- The cursor a schedule ends with is where its recurrence is left. -/
structure EndsAt (plan : AdvancePlan) (r : GameScheduleRecord) (R : Recurrence)
    (v : AdvanceCursor) : Prop where
  schedule : v.schedule = r
  ordinal : v.ordinal.value = R.made + R.dueCount plan.advance.toInclusive.tick.value
  completed : v.completed = true ↔ R.advance plan.advance.toInclusive.tick.value = none
  rest : v.completed = false → R.advance plan.advance.toInclusive.tick.value = some v.recurrence

theorem LoopRuns.endsAt (h : LoopRuns plan (plan.start ctx) popped out) (hplan : plan.Sound)
    {k : Nat} {v : AdvanceCursor} (hv : out.finalBySchedule.get? k = some v) :
    ∃ r ∈ plan.active, r.scheduleKey = k ∧ ∃ R, r.recurrence = some R ∧
      0 < R.dueCount plan.advance.toInclusive.tick.value ∧ EndsAt plan r R v := by
  rcases h.final hv with ⟨before, c, behind, hsplit, hk, hmoved, hbehind⟩ | ⟨hget, -⟩
  swap
  · exact absurd hget (by rw [AdvancePlan.start, OrderedMap.get?_empty]; exact nofun)
  have hc : c ∈ popped := hsplit ▸ by simp
  obtain ⟨r, hr, R, j, hR, hlive, hdue, hschedule, hrec⟩ := h.due_of_popped hplan hc
  have hlivec := hdue.live hlive
  rw [← hrec] at hlivec
  have hsorted := h.pairwise hplan
  -- the last cursor of a schedule is not put back
  have hlast : nextCursor ctx plan.advance.toInclusive.tick c = none := by
    cases hnext : nextCursor ctx plan.advance.toInclusive.tick c with
    | none => rfl
    | some c' =>
      exfalso
      obtain ⟨hs, hr', -, hdue'⟩ := nextCursor_spec hlivec hnext
      have hmem := h.next_mem hc hnext
      have hkey : c'.schedule.scheduleKey = k := by rw [hs, hk]
      have hstep : 0 < c.recurrence.step := by
        rcases hlivec.moves with hstep | hbound
        · exact hstep
        · exact absurd (hdue'.room _ hbound) (lt_irrefl _)
      have hbefore : c.Before c' := by
        have htick : c'.dueTick.value = c.dueTick.value + 1 * c.recurrence.step :=
          congrArg Recurrence.next hr'
        exact Or.inl (by omega)
      rw [hsplit] at hmem hsorted
      rcases List.mem_append.1 hmem with hin | hin
      · have := (List.pairwise_append.1 hsorted).2.2 c' hin c (List.mem_cons_self ..)
        exact AdvanceCursor.Before.irrefl c (hbefore.trans this)
      · rcases List.mem_cons.1 hin with rfl | hin
        · exact AdvanceCursor.Before.irrefl _ hbefore
        · exact hbehind c' hin hkey
  have hend := last_spec hlivec hmoved hlast
  rw [hrec, Recurrence.due_after, ← Recurrence.lt_dueCount_iff hlive] at hend
  have hlt := (Recurrence.lt_dueCount_iff hlive).2 hdue
  have hcount : R.dueCount plan.advance.toInclusive.tick.value = j + 1 := by omega
  have hspec := advanceCursor_spec hlivec hmoved
  have hmade : c.ordinal.value = R.made + j := congrArg Recurrence.made hrec
  have hcompleted := hspec.completed
  rw [hrec] at hcompleted
  have hnone : R.advance plan.advance.toInclusive.tick.value = none ↔
      R.bound = some (R.made + (j + 1)) := by
    unfold Recurrence.advance
    rw [hcount]
    split <;> simp_all
  refine ⟨r, hr, by rw [← hk, hschedule], R, hR, by omega,
    ⟨hspec.schedule.trans hschedule, by rw [hspec.ordinal, hmade, hcount]; omega,
      hcompleted.trans hnone.symm, fun hfalse => ?_⟩⟩
  have hrest := hspec.dueTick hfalse
  rw [hrec, Recurrence.after_after] at hrest
  rw [Recurrence.advance_eq_some_iff, hcount]
  refine ⟨fun hb => ?_, hrest⟩
  rw [hcompleted.2 hb] at hfalse
  cases hfalse

theorem InMemoryScheduleStore.AdvancePlan.Sound.eq_of_scheduleKey (hplan : plan.Sound)
    {r q : GameScheduleRecord} (hr : r ∈ plan.active) (hq : q ∈ plan.active)
    (h : r.scheduleKey = q.scheduleKey) : r = q :=
  List.inj_on_of_nodup_map hplan.distinct hr hq h

/-- The cursor under a schedule's key is the one it ends with. -/
theorem LoopRuns.endsAt_of_get? (h : LoopRuns plan (plan.start ctx) popped out)
    (hplan : plan.Sound) {r : GameScheduleRecord} (hr : r ∈ plan.active) {v : AdvanceCursor}
    (hv : out.finalBySchedule.get? r.scheduleKey = some v) :
    ∃ R, r.recurrence = some R ∧ 0 < R.dueCount plan.advance.toInclusive.tick.value ∧
      EndsAt plan r R v := by
  obtain ⟨q, hq, hkey, R, hR, hdue, hends⟩ := h.endsAt hplan hv
  obtain rfl := hplan.eq_of_scheduleKey hq hr hkey
  exact ⟨R, hR, hdue, hends⟩

/-- A schedule that is due ends with a cursor. -/
theorem LoopRuns.final_of_due (h : LoopRuns plan (plan.start ctx) popped out)
    {r : GameScheduleRecord} (hr : r ∈ plan.active) {R : Recurrence} (hR : r.recurrence = some R)
    (hlive : R.Live) (hdue : 0 < R.dueCount plan.advance.toInclusive.tick.value) :
    ∃ v, out.finalBySchedule.get? r.scheduleKey = some v := by
  obtain ⟨c, hc, hschedule, -⟩ :=
    h.popped_of_due hr hR hlive ((Recurrence.lt_dueCount_iff hlive).1 hdue)
  exact OrderedMap.has_iff.1 (h.final_of_mem (Or.inr ⟨c, hc, by rw [hschedule]⟩))

end Whole

end OpenGameAgent
