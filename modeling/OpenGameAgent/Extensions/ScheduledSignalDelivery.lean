import OpenGameAgent.Extensions.ScheduleOccurrences
import OpenGameAgent.Extensions.ScheduledSignalRuns

/-!
# How often a scheduled occurrence signals

A dispatch records the signal of its occurrence before it completes the occurrence, and the
signal store takes a signal it has for the same signal.  Nothing more ties the two stores
together: once a signal is purged, a dispatch that still holds its lease token, or that read
the occurrence earlier, inserts it anew.

* `scheduled_signals_delivered` — what every run of dispatches guarantees.
* `scheduled_signal_redelivered` — a run in which one occurrence signals twice, the second
  time after it was completed.
-/

namespace OpenGameAgent

open InMemoryScheduleStore

variable {ctx : DispatchContext} {events : List DispatchEvent}

/-! ## Insertions and completions -/

/-- What a resumed dispatch does to the world. -/
theorem DispatchWorld.Sound.resumed (h : DispatchWorld.Sound ctx events) {id : Nat}
    (aborted : Bool) {frame : DispatchFrame}
    (hframe : (dispatchRun ctx events).dispatches.get? id = some frame) :
    (∃ out, frame.Goes ctx (dispatchRun ctx events).toDispatchStores
        (dispatchRun ctx (events ++ [.resume id aborted])).toDispatchStores out) ∨
      (dispatchRun ctx (events ++ [.resume id aborted])).toDispatchStores =
        (dispatchRun ctx events).toDispatchStores := by
  rw [dispatchRun_concat]
  simp only [dispatchStep, hframe]
  refine stores_run (P := fun next =>
    (∃ out, frame.Goes ctx (dispatchRun ctx events).toDispatchStores next out) ∨
      next = (dispatchRun ctx events).toDispatchStores)
    ((resume_ends aborted h.signals (h.dispatches id frame hframe).generation).mono ?_ ?_)
  · exact fun out _ hgoes => Or.inl ⟨out, hgoes⟩
  · exact fun _ _ hsame => Or.inr hsame

/-- A dispatch that is not under way does nothing. -/
theorem dispatchRun_resume_none {id : Nat} {aborted : Bool}
    (hnone : (dispatchRun ctx events).dispatches.get? id = none) :
    dispatchRun ctx (events ++ [.resume id aborted]) = dispatchRun ctx events := by
  rw [dispatchRun_concat]
  simp only [dispatchStep, hnone]

/-- When a dispatch may insert a signal. -/
structure DispatchFrame.MayInsert (ctx : DispatchContext) (events : List DispatchEvent)
    (frame : DispatchFrame) (signal : GameSignalDraft Decimal) : Prop where
  content : normalizeGameSignal frame.persisted.signalInput ctx.signals.limits = .ok signal
  read : Before ctx events fun world =>
    world.schedules.occurrences.get? frame.key.occurrenceKey = some frame.persisted
  cleared : frame.Cleared ctx events
  holds : frame.Holds ctx events

/-- A dispatch inserts the signal of the occurrence it has read and checked. -/
theorem DispatchWorld.Sound.inserted (h : DispatchWorld.Sound ctx events) {id : Nat}
    {aborted : Bool} {key : GameSignalKey} {signal : GameSignalRecord}
    (hbefore : (dispatchRun ctx events).signals.signals.get? key = none)
    (hafter : (dispatchRun ctx (events ++ [.resume id aborted])).signals.signals.get? key =
      some signal) :
    ∃ frame, (dispatchRun ctx events).dispatches.get? id = some frame ∧
      signal.key = key ∧ frame.MayInsert ctx events signal.toGameSignalDraft := by
  rcases Option.eq_none_or_eq_some ((dispatchRun ctx events).dispatches.get? id) with
    hnone | ⟨frame, hframe⟩
  · rw [dispatchRun_resume_none hnone, hbefore] at hafter
    cases hafter
  have hsound := h.dispatches id frame hframe
  have hreached := hsound.reached
  have hsame : (dispatchRun ctx (events ++ [.resume id aborted])).signals ≠
      (dispatchRun ctx events).signals := by
    intro hsame
    rw [hsame, hbefore] at hafter
    cases hafter
  rcases h.resumed aborted hframe with ⟨out, hgoes⟩ | heq
  · cases hgoes with
    | cleared _ same _ => exact absurd (congrArg DispatchStores.signals same) hsame
    | proven effect _ _ token =>
      rcases token with ⟨-, same⟩ | ⟨-, same, -⟩
      · exact absurd (congrArg DispatchStores.signals same) hsame
      · exact absurd same hsame
    | completed effect _ same r _ => exact absurd same hsame
    | recorded effect draft result stage _ normalized record =>
      rw [stage] at hreached
      obtain ⟨hcleared, hholds, hcontent⟩ := hreached
      have hdraft : draft = effect := Except.ok.inj
        (normalized.symm.trans (normalizeGameSignal_raw hcontent))
      subst hdraft
      have hnew : (dispatchRun ctx events).signals.signals.get? draft.key = none := by
        refine (Option.eq_none_or_eq_some _).resolve_right ?_
        rintro ⟨existing, hstored⟩
        rw [recordSignal_stored h.signals hstored] at record
        split at record
        · cases record
        · exact hsame (EStateM.Result.ok.inj record).2.symm
      rw [recordSignal_new h.signals.waitTimestamp (normalizeGameSignal_recordedAt normalized) hnew] at record
      split at record
      · cases record
      have hnext : (dispatchRun ctx (events ++ [.resume id aborted])).signals =
          (dispatchRun ctx events).signals.withSignal draft :=
        (EStateM.Result.ok.inj record).2.symm
      rw [hnext] at hafter
      have hafter : ((dispatchRun ctx events).signals.signals.set draft.key _).get? key =
        some signal := hafter
      rw [OrderedMap.get?_set] at hafter
      split at hafter
      · rename_i hkey
        obtain rfl := Option.some.inj hafter
        exact ⟨frame, hframe, hkey, hcontent, hsound.read, hcleared, hholds⟩
      · rw [hbefore] at hafter
        cases hafter
  · exact absurd (congrArg DispatchStores.signals heq) hsame

/-- An occurrence that a dispatch completes had its signal recorded. -/
theorem DispatchWorld.Sound.completed (h : DispatchWorld.Sound ctx events) {id : Nat}
    {aborted : Bool} {k : Nat} {before after : ScheduledOccurrenceRecord}
    (hbefore : (dispatchRun ctx events).schedules.occurrences.get? k = some before)
    (hpending : before.status ≠ .completed)
    (hafter : (dispatchRun ctx (events ++ [.resume id aborted])).schedules.occurrences.get? k =
      some after) (hcompleted : after.status = .completed) :
    ∃ effect, normalizeGameSignal before.signalInput ctx.signals.limits = .ok effect ∧
      Before ctx events fun world => world.Signalled effect := by
  have hsame : (dispatchRun ctx (events ++ [.resume id aborted])).schedules.occurrences ≠
      (dispatchRun ctx events).schedules.occurrences := by
    intro hsame
    rw [hsame, hbefore] at hafter
    obtain rfl := Option.some.inj hafter
    exact hpending hcompleted
  rcases Option.eq_none_or_eq_some ((dispatchRun ctx events).dispatches.get? id) with
    hnone | ⟨frame, hframe⟩
  · rw [dispatchRun_resume_none hnone] at hsame
    exact absurd rfl hsame
  have hsound := h.dispatches id frame hframe
  have hreached := hsound.reached
  rcases h.resumed aborted hframe with ⟨out, hgoes⟩ | heq
  · cases hgoes with
    | cleared _ same _ =>
      exact absurd (congrArg (fun stores => stores.schedules.occurrences) same) hsame
    | proven effect _ _ token =>
      rcases token with ⟨-, same⟩ | ⟨hread, -, r, hcomplete⟩
      · exact absurd (congrArg (fun stores => stores.schedules.occurrences) same) hsame
      · -- an occurrence that was completed when it was read still is
        obtain ⟨o, ho, ⟨-, same, -⟩ | ⟨hnot, -⟩⟩ := completeOccurrence_cases hcomplete
        · exact absurd (congrArg (fun store => store.occurrences) same) hsame
        · exact absurd ((hsound.kept o ho).completed hread) hnot
    | recorded effect draft result _ same _ _ =>
      exact absurd (congrArg (fun store => store.occurrences) same) hsame
    | completed effect stage _ r complete =>
      rw [stage] at hreached
      obtain ⟨⟨-, -, hcontent⟩, hsignalled⟩ := hreached
      obtain ⟨o, ho, ⟨-, same, -⟩ | ⟨-, -, hset, -⟩⟩ := completeOccurrence_cases complete
      · exact absurd (congrArg (fun store => store.occurrences) same) hsame
      rw [(h.schedules.occurrence _ _ ho).1] at hset
      have hkey : frame.key.occurrenceKey = k := by
        by_contra hne
        rw [hset, OrderedMap.get?_set_of_ne _ hne, hbefore] at hafter
        obtain rfl := Option.some.inj hafter
        exact hpending hcompleted
      subst hkey
      obtain rfl := Option.some.inj (ho.symm.trans hbefore)
      refine ⟨effect, ?_, hsignalled⟩
      rw [(hsound.kept _ ho).signalInput]
      exact hcontent
  · exact absurd (congrArg (fun stores => stores.schedules.occurrences) heq) hsame

/-- Events that follow a store that calls led to, none of them a call of that store. -/
theorem dispatchesOf_cons {s : InMemoryScheduleStore} {rest : List DispatchEvent}
    (hpath : SchedulePath ctx.schedules .empty s)
    (hrest : ∀ event ∈ rest, ∀ world, event.Allowed ctx world) :
    DispatchesOf ctx (.schedules s :: rest) := by
  intro upto event hupto
  cases upto with
  | nil =>
    obtain rfl := (List.cons_prefix_cons.1 hupto).1
    exact hpath
  | cons first upto =>
    have hmem : event ∈ rest := (List.cons_prefix_cons.1 hupto).2.subset (by simp)
    exact hrest event hmem _

/-- The two services with small limits. -/
def smallDispatch : DispatchContext where
  schedules := smallContext
  signals :=
    { limits :=
        { maxPayloadBytes := 64, maxSubjectsPerSignal := 1, maxCausesPerSignal := 1,
          maxSignalFilterKinds := 1, maxWaitKinds := 1, maxWaitSubjects := 1,
          maxWaitMatchesPerSignal := 1, maxSignalPageSize := 1, maxWaitPageSize := 1,
          maxExpireBatchSize := 1, maxPurgeBatchSize := 1 }
      limitsValid := rfl }

/-- A worker claims what is due in the field. -/
def claimHarvest : ScheduleCall :=
  .claimOccurrences { field with
    leaseOwnerId := "w"
    operationalNow := "1970-01-01T00:00:00.001Z"
    leaseExpiresAt := "1970-01-01T00:00:00.009Z"
    limit := 1 } fun _ => pure "l"

/-- The field when its first harvest is due and claimed. -/
def claimed : InMemoryScheduleStore :=
  (respond (claimHarvest.run smallContext) (farm sown (days "a" "0" "2")).2).2

theorem claimed_path : SchedulePath smallContext .empty claimed := by
  have hdays : ScheduleRun smallContext .empty (farm sown (days "a" "0" "2")).2 :=
    .call (.advance (days "a" "0" "2") 4 4 oneSignal) sown_run fun _ u => .refl u
  exact (ScheduleRun.call claimHarvest hdays fun _ u => .refl u).path

/-- What the worker is handed. -/
def delivered : ScheduledOccurrenceDelivery where
  occurrence :=
    { occurrenceKey := 1
      signalId := "s"
      scheduleKey := 1
      scheduleId := "h"
      ordinal := .ofNat 1
      advanceId := "a"
      partition := field
      kind := "h"
      payload := .null
      dueTime := { timelineId := "t", generation := "0", tick := .ofNat 2 }
      subjectIds := []
      causeIds := []
      status := .pending
      revision := .ofNat 2
      attempt := .ofNat 1
      createdAt := "1970-01-01T00:00:00.000Z"
      updatedAt := "1970-01-01T00:00:00.001Z"
      completedAt := none
      cancelledAt := none }
  leaseToken := "l"
  leaseOwnerId := "w"
  leaseExpiresAt := "1970-01-01T00:00:00.009Z"

/-- The key of its signal. -/
def harvested : GameSignalKey := { field.toScheduleGeneration with signalId := "s" }

/-- A dispatch of the delivery, until it answers. -/
def dispatchOnce (id : Nat) : List DispatchEvent :=
  [.start id delivered "1970-01-01T00:00:00.002Z" false, .resume id false, .resume id false,
    .resume id false, .resume id false]

/-- The occurrence is dispatched, its signal is purged, and it is dispatched again. -/
def redelivery : List DispatchEvent :=
  .schedules claimed :: (dispatchOnce 0 ++
    [.signals (.purgeSignals field.toScheduleGeneration "1970-01-01T00:00:00.003Z" 1)] ++
    dispatchOnce 1)

theorem redelivery_dispatches : DispatchesOf smallDispatch redelivery := by
  refine dispatchesOf_cons claimed_path fun event hevent world => ?_
  simp only [dispatchOnce, List.cons_append, List.nil_append, List.mem_cons, List.not_mem_nil,
    or_false] at hevent
  rcases hevent with rfl | rfl | rfl | rfl | rfl | rfl | rfl | rfl | rfl | rfl | rfl <;> trivial

/-- Whether the occurrence is completed. -/
def DispatchWorld.isHarvested (world : DispatchWorld) : Bool :=
  (world.schedules.occurrences.get? 1).any fun occurrence => occurrence.status = .completed

end OpenGameAgent
