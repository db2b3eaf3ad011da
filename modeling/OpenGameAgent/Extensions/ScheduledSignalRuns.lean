import OpenGameAgent.Extensions.ScheduleSteps
import OpenGameAgent.Extensions.ScheduledSignals
import OpenGameAgent.Extensions.SignalRuns
import OpenGameAgent.Protocol.CanonicalJson

/-!
# Runs of scheduled signal dispatches

What any interleaving of dispatches with other calls to the two stores comes to.

* `OccurrencesKept` — an occurrence keeps its signal, and a completed one stays completed.
* `DispatchFrame.Sound` — what a dispatch has read was stored, and each check it passed
  held at some time since.
* `DispatchWorld.Sound` and `sound_dispatchRun` — this holds of every run.
-/

namespace OpenGameAgent

open InMemoryScheduleStore

/-! ## A draft that was normalized -/

theorem normalizeIdentifierSet_idem {values normalized : List String} {maximum : Nat}
    {code : String} (h : normalizeIdentifierSet values maximum code = .ok normalized) :
    normalizeIdentifierSet normalized maximum code = .ok normalized := by
  simp only [normalizeIdentifierSet, bind_eq_ok, demand_eq_ok, decide_eq_true_eq] at h
  obtain ⟨_, hlength, _, hvalid, _, hnodup, h⟩ := h
  obtain rfl := return_eq_ok.1 h
  have htrans : IsTrans String textLe := ⟨fun _ _ _ => unitsLe_trans⟩
  have htotal : Std.Total textLe := ⟨fun _ _ => unitsLe_total _ _⟩
  have hperm := List.perm_insertionSort textLe values
  have hsorted := (List.pairwise_insertionSort textLe values).insertionSort_eq
  simp only [normalizeIdentifierSet, bind_eq_ok, demand_eq_ok, decide_eq_true_eq]
  refine ⟨(), by rwa [hperm.length_eq], (), ?_, (), hperm.nodup_iff.2 hnodup, ?_⟩
  · rw [List.all_eq_true] at hvalid ⊢
    exact fun value hvalue => hvalid value (hperm.mem_iff.1 hvalue)
  · rw [hsorted]
    rfl

/-- Normalizing changes nothing that was normalized. -/
theorem normalizeGameSignal_raw {input : GameSignalDraft String} {limits : SignalLimits}
    {draft : GameSignalDraft Decimal} (h : normalizeGameSignal input limits = .ok draft) :
    normalizeGameSignal draft.raw limits = .ok draft := by
  simp only [normalizeGameSignal, bind_eq_ok] at h
  obtain ⟨_, hsignalId, partition, hpartition, _, hkind, _, hpayload, gameTime, htime, subjectIds,
    hsubjects, causeIds, hcauses, _, htimestamp, h⟩ := h
  obtain rfl := return_eq_ok.1 h
  have hsame : partition = input.partition := by
    simp only [normalizeSignalPartition, bind_eq_ok] at hpartition
    obtain ⟨_, _, _, _, _, _, _, _, _, _, hpartition⟩ := hpartition
    exact return_eq_ok.1 hpartition
  subst hsame
  have hraw : normalizeSignalGameTime gameTime.raw input.partition = .ok gameTime := by
    simp only [normalizeSignalGameTime, bind_eq_ok, demand_eq_ok] at htime
    obtain ⟨_, hvalid, _, hplace, tick, htick, htime⟩ := htime
    obtain rfl := return_eq_ok.1 htime
    have htext : tick.text = input.gameTime.tick := by
      unfold validateSignalDecimal at htick
      split at htick
      · cases htick
        rfl
      · cases htick
    simp only [normalizeSignalGameTime, bind_eq_ok, demand_eq_ok]
    refine ⟨(), ?_, (), hplace, tick, validateSignalDecimal_text tick _, rfl⟩
    simp only [isGameTime, GameTime.raw] at hvalid ⊢
    rwa [htext]
  simp only [normalizeGameSignal, GameSignalDraft.raw, bind_eq_ok]
  exact ⟨(), hsignalId, input.partition, hpartition, (), hkind, (), hpayload, gameTime, hraw,
    subjectIds, normalizeIdentifierSet_idem hsubjects, causeIds,
    normalizeIdentifierSet_idem hcauses, (), htimestamp, rfl⟩

/-! ## What the schedule store keeps -/

section Schedules

variable {ctx : ScheduleContext} {s s' t : InMemoryScheduleStore}

/-- What becomes of an occurrence: its signal stays, and a completed one stays completed. -/
structure ScheduledOccurrenceRecord.Kept (o o' : ScheduledOccurrenceRecord) : Prop where
  signalInput : o'.signalInput = o.signalInput
  completed : o.status = .completed → o'.status = .completed

theorem ScheduledOccurrenceRecord.Kept.refl (o : ScheduledOccurrenceRecord) : o.Kept o :=
  ⟨rfl, id⟩

theorem ScheduledOccurrenceRecord.Kept.trans {o p q : ScheduledOccurrenceRecord}
    (hop : o.Kept p) (hpq : p.Kept q) : o.Kept q :=
  ⟨hpq.signalInput.trans hop.signalInput, fun h => hpq.completed (hop.completed h)⟩

/-- What a schedule store keeps of its occurrences: keys are not given out again. -/
structure OccurrencesKept (s s' : InMemoryScheduleStore) : Prop where
  next : s.nextOccurrenceKey ≤ s'.nextOccurrenceKey
  kept : ∀ k o', s'.occurrences.get? k = some o' → k < s.nextOccurrenceKey →
    ∃ o, s.occurrences.get? k = some o ∧ o.Kept o'

theorem OccurrencesKept.refl (s : InMemoryScheduleStore) : OccurrencesKept s s :=
  ⟨le_refl _, fun _ o' h _ => ⟨o', h, .refl o'⟩⟩

theorem OccurrencesKept.trans (h : OccurrencesKept s t) (h' : OccurrencesKept t s') :
    OccurrencesKept s s' := by
  refine ⟨h.next.trans h'.next, fun k o' ho' hk => ?_⟩
  obtain ⟨p, hp, hpo⟩ := h'.kept k o' ho' (hk.trans_le h.next)
  obtain ⟨o, ho, hop⟩ := h.kept k p hp hk
  exact ⟨o, ho, hop.trans hpo⟩

/-- A write that leaves the occurrences alone. -/
theorem OccurrencesKept.of_eq (hoccurrences : s'.occurrences = s.occurrences)
    (hnext : s'.nextOccurrenceKey = s.nextOccurrenceKey) : OccurrencesKept s s' :=
  ⟨hnext.ge, fun _ o' h _ => ⟨o', hoccurrences ▸ h, .refl o'⟩⟩

/-- A write of one occurrence. -/
theorem OccurrencesKept.set {k : Nat} {o o' : ScheduledOccurrenceRecord}
    (ho : s.occurrences.get? k = some o) (hkept : o.Kept o')
    (hoccurrences : s'.occurrences = s.occurrences.set k o')
    (hnext : s'.nextOccurrenceKey = s.nextOccurrenceKey) : OccurrencesKept s s' := by
  refine ⟨hnext.ge, fun j q hq _ => ?_⟩
  rw [hoccurrences, OrderedMap.get?_set] at hq
  split at hq
  · rename_i hkj
    subst hkj
    obtain rfl := Option.some.inj hq
    exact ⟨o, ho, hkept⟩
  · exact ⟨q, hq, .refl q⟩

theorem Purges.kept (h : Purges s s') : OccurrencesKept s s' := by
  obtain ⟨p, hp, -⟩ := h.occurrences
  refine ⟨h.nextOccurrenceKey.ge, fun k o' ho' _ => ⟨o', ?_, .refl o'⟩⟩
  rw [hp] at ho'
  exact (OrderedMap.get?_filterKeys_eq_some.1 ho').2

theorem claimDelivery_kept {claim : ScheduleOccurrenceClaimRequest}
    {o : ScheduledOccurrenceRecord} {token : String} {delivery : ScheduledOccurrenceDelivery}
    (h : claimDelivery ctx claim o token = .ok delivery) : o.Kept delivery.occurrence := by
  simp only [claimDelivery, bind_eq_ok] at h
  obtain ⟨_, -, revision, -, attempt, -, updatedAt, -, h⟩ := h
  obtain rfl := return_eq_ok.1 h
  exact ⟨rfl, id⟩

theorem commitClaim_kept {claim : ScheduleOccurrenceClaimRequest}
    {selected : List ScheduledOccurrenceRecord} {deliveries r : List ScheduledOccurrenceDelivery}
    (hdeliveries : List.Forall₂ (fun record delivery =>
      ∃ token, claimDelivery ctx claim record token = .ok delivery) selected deliveries)
    (h : s.commitClaim selected deliveries = .ok (r, s')) : OccurrencesKept s s' := by
  simp only [commitClaim, bind_eq_ok] at h
  obtain ⟨⟨⟩, hclaim, h⟩ := h
  have hclaimable := assertClaimable_eq_ok_iff.1 hclaim
  have hresult := return_eq_ok.1 h
  rw [Prod.mk.injEq] at hresult
  obtain ⟨rfl, rfl⟩ := hresult
  refine ⟨le_refl _, fun k o' ho' _ => ?_⟩
  rcases OrderedMap.get?_foldl_set ho' with ⟨x, hx, hxk, rfl⟩ | ⟨-, hget⟩
  · obtain ⟨delivery, hdelivery, rfl⟩ := List.mem_map.1 hx
    obtain ⟨o, ho, token, hdelivered⟩ := exists_left_of_forall₂ hdeliveries hdelivery
    have hkey := (claimDelivery_spec hdelivered).1.occurrenceKey
    refine ⟨o, ?_, claimDelivery_kept hdelivered⟩
    rw [← hxk, hkey]
    exact (hclaimable o ho).2
  · exact ⟨o', hget, .refl o'⟩

theorem findOccurrence_generation {key : ScheduledOccurrenceSequenceKey}
    {o : ScheduledOccurrenceRecord} (h : s.findOccurrence key = .ok o) :
    o.partition.toScheduleGeneration = key.toScheduleGeneration := by
  unfold findOccurrence at h
  split at h
  · split at h
    · rename_i hsame
      cases h
      exact sameScheduleGeneration_iff.1 hsame
    · cases h
  · cases h

theorem readAuthorityRetirement_eq_ok {lane : WorkAuthorityLane}
    {retirement : Option ScheduleAuthorityRetirementRecord}
    (h : s.readAuthorityRetirement ctx lane = .ok retirement) :
    retirement = s.retirements.get? lane := by
  simp only [readAuthorityRetirement, normalizeScheduleAuthorityLane, captureWorkAuthorityLane,
    bind_eq_ok] at h
  obtain ⟨lane', ⟨captured, hcaptured, _, -, hlane'⟩, h⟩ := h
  obtain rfl := return_eq_ok.1 hlane'
  split at hcaptured
  · cases hcaptured
    exact return_eq_ok.1 h
  · cases hcaptured

/-- What `completeOccurrence` does: nothing to a completed occurrence, whose token it checks. -/
theorem completeOccurrence_cases {key : ScheduledOccurrenceSequenceKey}
    {leaseToken recordedAt : String} {r : ScheduledOccurrenceRecord}
    (h : s.completeOccurrence ctx key leaseToken recordedAt = .ok (r, s')) :
    ∃ o, s.occurrences.get? key.occurrenceKey = some o ∧
      ((o.status = .completed ∧ s' = s ∧
          s.completedLeaseTokens.get? o.occurrenceKey = some leaseToken) ∨
        (o.status ≠ .completed ∧ o.Kept r ∧
          s'.occurrences = s.occurrences.set o.occurrenceKey r ∧
          s'.nextOccurrenceKey = s.nextOccurrenceKey)) := by
  simp only [completeOccurrence, bind_eq_ok] at h
  obtain ⟨key', hkey, _, -, current, hcurrent, h⟩ := h
  have hsame : key' = key := by
    simp only [validateScheduledOccurrenceSequenceKey, bind_eq_ok] at hkey
    obtain ⟨_, -, _, -, hkey⟩ := hkey
    exact return_eq_ok.1 hkey
  subst hsame
  refine ⟨current, findOccurrence_eq_ok hcurrent, ?_⟩
  split at h
  · rename_i hcompleted
    simp only [bind_eq_ok, require_eq_ok, decide_eq_true_eq] at h
    obtain ⟨_, htoken, h⟩ := h
    have hresult := return_eq_ok.1 h
    rw [Prod.mk.injEq] at hresult
    exact Or.inl ⟨hcompleted, hresult.2, htoken⟩
  · rename_i hcompleted
    simp only [bind_eq_ok] at h
    obtain ⟨_, -, _, -, completedAt, -, revision, -, h⟩ := h
    have hresult := return_eq_ok.1 h
    rw [Prod.mk.injEq] at hresult
    obtain ⟨rfl, rfl⟩ := hresult
    exact Or.inr ⟨hcompleted, ⟨rfl, fun _ => rfl⟩, rfl, rfl⟩

theorem completeOccurrence_kept (hs : s.Sound ctx) {key : ScheduledOccurrenceSequenceKey}
    {leaseToken recordedAt : String} {r : ScheduledOccurrenceRecord}
    (h : s.completeOccurrence ctx key leaseToken recordedAt = .ok (r, s')) :
    OccurrencesKept s s' := by
  obtain ⟨o, ho, ⟨-, rfl, -⟩ | ⟨-, hkept, hset, hnext⟩⟩ := completeOccurrence_cases h
  · exact .refl s'
  · rw [(hs.occurrence _ _ ho).1] at hset
    exact .set ho hkept hset hnext

theorem abandonOccurrence_kept (hs : s.Sound ctx) {key : ScheduledOccurrenceSequenceKey}
    {leaseToken recordedAt : String} {r : ScheduledOccurrenceRecord}
    (h : s.abandonOccurrence ctx key leaseToken recordedAt = .ok (r, s')) :
    OccurrencesKept s s' := by
  simp only [abandonOccurrence, bind_eq_ok] at h
  obtain ⟨key', -, _, -, current, hcurrent, _, -, _, -, revision, -, updatedAt, -, h⟩ := h
  have hget := findOccurrence_eq_ok hcurrent
  have hresult := return_eq_ok.1 h
  rw [Prod.mk.injEq] at hresult
  obtain ⟨-, rfl⟩ := hresult
  rw [← (hs.occurrence _ _ hget).1] at hget
  refine .set hget ?_ rfl rfl
  exact ⟨rfl, id⟩

theorem Retires.keptOccurrences {request : WorkAuthorityRetirementRequest}
    {phase : RetirementPhase} {retirement : ScheduleAuthorityRetirementRecord}
    (h : Retires ctx s request phase retirement s') : OccurrencesKept s s' := by
  refine ⟨h.nextOccurrenceKey.ge, fun k o' ho' _ => ?_⟩
  obtain ⟨o, ho, ⟨⟨hpending, -⟩, hcancelled⟩ | ⟨-, rfl⟩⟩ := h.occurrences.of_get? ho'
  · refine ⟨o, ho, ?_, fun hcompleted => ?_⟩
    · rw [hcancelled.rest]
      rfl
    · rw [hpending] at hcompleted
      cases hcompleted
  · exact ⟨o', ho, .refl o'⟩

theorem ScheduleStep.occurrencesKept (h : ScheduleStep ctx s s') (hs : s.Sound ctx) :
    OccurrencesKept s s' := by
  cases h with
  | create h =>
    rcases create_spec h with rfl | ⟨schedule, hcreates⟩
    · exact .refl s'
    · rw [hcreates.store]
      exact .of_eq rfl rfl
  | retire h =>
    obtain ⟨request, -, ⟨-, -, -, rfl⟩ | hretires⟩ := retireAuthority_spec hs h
    · exact .refl s'
    · exact hretires.keptOccurrences
  | cancel h =>
    obtain ⟨r, -, -, -, -, rfl⟩ := cancelSchedule_spec h
    exact .of_eq rfl rfl
  | advance hready h =>
    obtain ⟨hwrites, -⟩ := commitAdvance_spec hs hready h
    refine ⟨hwrites.nextOccurrenceKey ▸ Nat.le_add_right _ _, fun k o' ho' hk => ?_⟩
    rcases hwrites.occurrence_of_get? ho' with ⟨hin, rfl⟩ | hget
    · have hmem := List.mem_map_of_mem (f := fun o => o.occurrenceKey) hin
      rw [hwrites.keys, List.mem_range'_1] at hmem
      omega
    · exact ⟨o', hget, .refl o'⟩
  | claim hdeliveries h => exact commitClaim_kept hdeliveries h
  | complete h => exact completeOccurrence_kept hs h
  | abandon h => exact abandonOccurrence_kept hs h
  | purgeOccurrences h => exact (purgeTerminalOccurrences_spec hs h).kept
  | purgeSchedules h => exact (purgeTerminalSchedules_spec h).kept
  | purgeAdvances h => exact (purgeAdvances_spec h).kept

theorem SchedulePath.occurrencesKept (h : SchedulePath ctx s s') (hs : s.Sound ctx) :
    OccurrencesKept s s' := by
  induction h with
  | refl => exact .refl s
  | tail hpath hstep ih => exact ih.trans (hstep.occurrencesKept (SchedulePath.sound hpath hs))

end Schedules

/-! ## What one stage of a dispatch does -/

section Stages

variable {ctx : DispatchContext} {stores : DispatchStores} {frame : DispatchFrame}
  {aborted : Bool}

theorem ends_scheduleCheck {α : Type} {x : Except ScheduleError α}
    {Q : α → DispatchStores → Prop} {E : DispatchError → DispatchStores → Prop} :
    Ends (scheduleCheck x) stores Q E ↔
      (∀ a, x = .ok a → Q a stores) ∧ ∀ e, x = .error e → E (.schedule e) stores := by
  cases x <;> simp [scheduleCheck, Except.mapError]

theorem ends_signalCheck {α : Type} {x : Except SignalError α}
    {Q : α → DispatchStores → Prop} {E : DispatchError → DispatchStores → Prop} :
    Ends (signalCheck x) stores Q E ↔
      (∀ a, x = .ok a → Q a stores) ∧ ∀ e, x = .error e → E (.signal e) stores := by
  cases x <;> simp [signalCheck, Except.mapError]

theorem ends_throwIfAborted {Q : Unit → DispatchStores → Prop}
    {E : DispatchError → DispatchStores → Prop} (hQ : Q () stores) (hE : E .aborted stores) :
    Ends (throwIfAborted aborted) stores Q E := by
  unfold throwIfAborted
  split
  · exact hE
  · exact hQ

theorem ends_onSchedules {α : Type}
    {f : InMemoryScheduleStore → Except ScheduleError (α × InMemoryScheduleStore)}
    {Q : α → DispatchStores → Prop} {E : DispatchError → DispatchStores → Prop} :
    Ends (onSchedules f) stores Q E ↔
      (∀ a next, f stores.schedules = .ok (a, next) → Q a { stores with schedules := next }) ∧
        ∀ e, f stores.schedules = .error e → E (.schedule e) stores := by
  unfold onSchedules
  rw [ends_bind, ends_get, ends_bind, ends_scheduleCheck]
  simp only [ends_bind, ends_set, ends_pure, Prod.forall]

/-- A frame that has just read its occurrence. -/
structure DispatchFrame.Reads (frame : DispatchFrame) (store : InMemoryScheduleStore) : Prop where
  stage : frame.stage = .found
  persisted : store.occurrences.get? frame.key.occurrenceKey = some frame.persisted
  generation : frame.persisted.partition.toScheduleGeneration = frame.key.toScheduleGeneration

theorem startDispatch_ends {delivery : ScheduledOccurrenceDelivery} {completedAt : String} :
    Ends (startDispatch ctx delivery completedAt aborted) stores
      (fun frame next => next = stores ∧ frame.Reads stores.schedules)
      fun _ next => next = stores := by
  unfold startDispatch
  rw [ends_bind]
  refine ends_throwIfAborted ?_ rfl
  rw [ends_bind, ends_scheduleCheck]
  refine ⟨fun _ _ => ?_, fun _ _ => rfl⟩
  rw [ends_bind, ends_scheduleCheck]
  refine ⟨fun _ _ => ?_, fun _ _ => rfl⟩
  rw [ends_bind, ends_scheduleCheck]
  refine ⟨fun _ _ => ?_, fun _ _ => rfl⟩
  rw [ends_bind, ends_scheduleCheck]
  refine ⟨fun _ _ => ?_, fun _ _ => rfl⟩
  rw [ends_bind, ends_signalCheck]
  refine ⟨fun captured _ => ?_, fun _ _ => rfl⟩
  rw [ends_bind, ends_scheduleCheck]
  refine ⟨fun key _ => ?_, fun _ _ => rfl⟩
  rw [ends_bind, ends_get, ends_bind, ends_scheduleCheck]
  refine ⟨fun persisted hpersisted => ?_, fun _ _ => rfl⟩
  refine ends_pure.2 ⟨rfl, rfl, findOccurrence_eq_ok hpersisted, ?_⟩
  exact findOccurrence_generation hpersisted

theorem clear_ends (hgeneration :
    frame.persisted.partition.toScheduleGeneration = frame.key.toScheduleGeneration) :
    Ends (frame.clear ctx) stores
      (fun _ next => next = stores ∧
        stores.schedules.isRetired frame.persisted.partition = false)
      fun _ next => next = stores := by
  unfold DispatchFrame.clear isRetired SchedulePartition.lane?
  cases hsession : frame.persisted.partition.sessionId with
  | none => exact ⟨rfl, rfl⟩
  | some sessionId =>
    cases hactor : frame.persisted.partition.actorId with
    | none => exact ⟨rfl, rfl⟩
    | some actorId =>
      simp only
      rw [ends_bind, ends_get, ends_bind, ends_scheduleCheck]
      refine ⟨fun retirement hretirement => ?_, fun _ _ => rfl⟩
      have hsame := readAuthorityRetirement_eq_ok hretirement
      split
      · exact ends_throw.2 rfl
      · rename_i hnone
        refine ends_pure.2 ⟨rfl, ?_⟩
        rw [Option.any_some, hgeneration, OrderedMap.has, ← hsame]
        exact Bool.eq_false_iff.2 hnone

/-- What the checks of a dispatch make sure of. -/
structure DispatchFrame.Proves (ctx : DispatchContext) (frame : DispatchFrame)
    (effect : GameSignalDraft Decimal) : Prop where
  normalized :
    normalizeGameSignal frame.persisted.signalInput ctx.signals.limits = .ok effect
  current : frame.persisted.status = .completed ∨ (frame.persisted.status = .pending ∧
    frame.persisted.revision = frame.delivery.occurrence.revision ∧
    frame.persisted.attempt = frame.delivery.occurrence.attempt)

theorem prove_ends :
    Ends (frame.prove ctx aborted) stores
      (fun effect next => frame.Proves ctx effect ∧
        ((frame.persisted.status ≠ .completed ∧ next = stores) ∨
          (frame.persisted.status = .completed ∧ next.signals = stores.signals ∧
            ∃ r, stores.schedules.completeOccurrence ctx.schedules frame.key
              frame.delivery.leaseToken frame.completedAt = .ok (r, next.schedules))))
      fun _ next => next = stores := by
  unfold DispatchFrame.prove
  rw [ends_bind, ends_signalCheck]
  refine ⟨fun effect heffect => ?_, fun _ _ => rfl⟩
  rw [ends_bind, ends_scheduleCheck]
  refine ⟨fun _ hcurrent => ?_, fun _ _ => rfl⟩
  have hproves : frame.Proves ctx effect := by
    refine ⟨heffect, ?_⟩
    rw [require_eq_ok] at hcurrent
    simp only [DispatchFrame.isCurrent, Bool.and_eq_true, decide_eq_true_eq, Bool.not_eq_true',
      Bool.and_eq_false_iff, Bool.or_eq_false_iff, decide_eq_false_iff_not, not_not] at hcurrent
    obtain ⟨⟨-, hpending⟩, hcancelled⟩ := hcurrent
    cases hstatus : frame.persisted.status with
    | completed => exact Or.inl rfl
    | cancelled => exact absurd hstatus hcancelled
    | pending => exact Or.inr ⟨rfl, hpending.resolve_left (not_not.2 hstatus)⟩
  rw [ends_bind]
  refine ends_throwIfAborted ?_ rfl
  split
  · rename_i hcompleted
    unfold DispatchFrame.complete
    rw [ends_bind, ends_onSchedules]
    refine ⟨fun r next hcomplete => ?_, fun _ _ => rfl⟩
    exact ends_pure.2 ⟨hproves, Or.inr ⟨hcompleted, rfl, r, hcomplete⟩⟩
  · rename_i hcompleted
    exact ends_pure.2 ⟨hproves, Or.inl ⟨hcompleted, rfl⟩⟩

theorem ends_onSignals {α : Type} {m : SignalProgram α} {Q : α → DispatchStores → Prop}
    {E : DispatchError → DispatchStores → Prop} :
    Ends (onSignals m) stores Q E ↔
      Ends m stores.signals (fun a signals => Q a { stores with signals := signals })
        fun e signals => E (.signal e) { stores with signals := signals } := by
  unfold Ends onSignals
  cases m stores.signals <;> rfl

/-- What a dispatch that goes on does, from one await to the next. -/
inductive DispatchFrame.Goes (ctx : DispatchContext) (frame : DispatchFrame)
    (stores next : DispatchStores) : Option DispatchFrame → Prop
  | cleared (stage : frame.stage = .found) (same : next = stores)
      (isOpen : stores.schedules.isRetired frame.persisted.partition = false) :
      Goes ctx frame stores next (some { frame with stage := .cleared })
  | proven (effect : GameSignalDraft Decimal) (stage : frame.stage = .cleared)
      (proves : frame.Proves ctx effect)
      (token : (frame.persisted.status ≠ .completed ∧ next = stores) ∨
        (frame.persisted.status = .completed ∧ next.signals = stores.signals ∧
          ∃ r, stores.schedules.completeOccurrence ctx.schedules frame.key
            frame.delivery.leaseToken frame.completedAt = .ok (r, next.schedules))) :
      Goes ctx frame stores next (some { frame with stage := .proven effect })
  | recorded (effect draft : GameSignalDraft Decimal) (result : SignalRecordResult)
      (stage : frame.stage = .proven effect) (schedules : next.schedules = stores.schedules)
      (normalized : normalizeGameSignal effect.raw ctx.signals.limits = .ok draft)
      (record : recordSignal draft ctx.signals.limits.maxWaitMatchesPerSignal stores.signals =
        .ok result next.signals) :
      Goes ctx frame stores next (some { frame with stage := .recorded effect })
  | completed (effect : GameSignalDraft Decimal) (stage : frame.stage = .recorded effect)
      (signals : next.signals = stores.signals) (r : ScheduledOccurrenceRecord)
      (complete : stores.schedules.completeOccurrence ctx.schedules frame.key
        frame.delivery.leaseToken frame.completedAt = .ok (r, next.schedules)) :
      Goes ctx frame stores next none

theorem resume_ends (aborted : Bool)
    (hsignals : stores.signals.Sound ctx.signals.limits.maxWaitMatchesPerSignal)
    (hgeneration :
      frame.persisted.partition.toScheduleGeneration = frame.key.toScheduleGeneration) :
    Ends (frame.resume ctx aborted) stores (fun out next => frame.Goes ctx stores next out)
      fun _ next => next = stores := by
  unfold DispatchFrame.resume
  cases hstage : frame.stage with
  | found =>
    refine ends_bind.2 ((clear_ends hgeneration).mono ?_ fun _ _ h => h)
    rintro - next ⟨rfl, hopen⟩
    exact ends_pure.2 (.cleared hstage rfl hopen)
  | cleared =>
    refine ends_bind.2 (prove_ends.mono ?_ fun _ _ h => h)
    rintro effect next ⟨hproves, htoken⟩
    exact ends_pure.2 (.proven effect hstage hproves htoken)
  | proven effect =>
    refine ends_bind.2 (ends_signalCheck.2 ⟨fun draft hdraft => ?_, fun _ _ => rfl⟩)
    have hchanges := recordSignal_changes hsignals (normalizeGameSignal_recordedAt hdraft)
    refine ends_bind.2 (ends_onSignals.2 ((ends_self.and hchanges).mono ?_ ?_))
    · rintro result signals ⟨hrecord, -⟩
      exact ends_pure.2 (.recorded effect draft result hstage rfl hdraft hrecord)
    · rintro e signals ⟨-, rfl⟩
      rfl
  | recorded effect =>
    refine ends_bind.2 (ends_throwIfAborted ?_ rfl)
    unfold DispatchFrame.complete
    refine ends_bind.2 (ends_onSchedules.2 ⟨fun r next hcomplete => ?_, fun _ _ => rfl⟩)
    exact ends_pure.2 (.completed effect hstage rfl r hcomplete)

end Stages

/-! ## Runs -/

variable {ctx : DispatchContext} {events : List DispatchEvent} {event : DispatchEvent}

/-- Something held of the world at some time of a run. -/
def Before (ctx : DispatchContext) (events : List DispatchEvent) (P : DispatchWorld → Prop) :
    Prop :=
  ∃ upto, upto <+: events ∧ P (dispatchRun ctx upto)

theorem Before.now {P : DispatchWorld → Prop} (h : P (dispatchRun ctx events)) :
    Before ctx events P :=
  ⟨events, List.prefix_rfl, h⟩

theorem Before.later {P : DispatchWorld → Prop} (h : Before ctx events P)
    (event : DispatchEvent) : Before ctx (events ++ [event]) P := by
  obtain ⟨upto, hupto, hP⟩ := h
  exact ⟨upto, hupto.trans (List.prefix_append _ _), hP⟩

theorem dispatchRun_concat (events : List DispatchEvent) (event : DispatchEvent) :
    dispatchRun ctx (events ++ [event]) = dispatchStep ctx (dispatchRun ctx events) event := by
  unfold dispatchRun
  rw [List.foldl_append]
  rfl

/-- The signal of a dispatch is stored. -/
def DispatchWorld.Signalled (world : DispatchWorld) (effect : GameSignalDraft Decimal) : Prop :=
  world.signals.signals.get? effect.key ≠ none ∧
    world.signals.signalFingerprints.get? effect.key = some (signalFingerprint effect)

namespace DispatchFrame

/-- The lane of the occurrence was open since the dispatch began. -/
def Cleared (ctx : DispatchContext) (events : List DispatchEvent) (frame : DispatchFrame) : Prop :=
  Before ctx events fun world => world.schedules.isRetired frame.persisted.partition = false

/-- The occurrence was pending as delivered when it was read, or is completed under the
token. -/
def Holds (ctx : DispatchContext) (events : List DispatchEvent) (frame : DispatchFrame) : Prop :=
  (frame.persisted.status = .pending ∧
    frame.persisted.revision = frame.delivery.occurrence.revision ∧
    frame.persisted.attempt = frame.delivery.occurrence.attempt) ∨
  (frame.persisted.status = .completed ∧ Before ctx events fun world =>
    world.schedules.completedLeaseTokens.get? frame.key.occurrenceKey =
      some frame.delivery.leaseToken)

/-- What a dispatch may rely on at its stage. -/
def Reached (ctx : DispatchContext) (events : List DispatchEvent) (frame : DispatchFrame) :
    DispatchStage → Prop
  | .found => True
  | .cleared => frame.Cleared ctx events
  | .proven effect => frame.Cleared ctx events ∧ frame.Holds ctx events ∧
      normalizeGameSignal frame.persisted.signalInput ctx.signals.limits = .ok effect
  | .recorded effect => (frame.Cleared ctx events ∧ frame.Holds ctx events ∧
      normalizeGameSignal frame.persisted.signalInput ctx.signals.limits = .ok effect) ∧
      Before ctx events fun world => world.Signalled effect

/-- What holds of a dispatch that awaits. -/
structure Sound (ctx : DispatchContext) (events : List DispatchEvent) (frame : DispatchFrame) :
    Prop where
  generation : frame.persisted.partition.toScheduleGeneration = frame.key.toScheduleGeneration
  bound : frame.key.occurrenceKey < (dispatchRun ctx events).schedules.nextOccurrenceKey
  kept : ∀ o, (dispatchRun ctx events).schedules.occurrences.get? frame.key.occurrenceKey = some o →
    frame.persisted.Kept o
  read : Before ctx events fun world =>
    world.schedules.occurrences.get? frame.key.occurrenceKey = some frame.persisted
  reached : frame.Reached ctx events frame.stage

theorem Holds.later {frame : DispatchFrame} (h : frame.Holds ctx events) (event : DispatchEvent) :
    frame.Holds ctx (events ++ [event]) :=
  h.imp_right fun h => ⟨h.1, h.2.later event⟩

theorem Reached.later {frame : DispatchFrame} {stage : DispatchStage}
    (h : frame.Reached ctx events stage) (event : DispatchEvent) :
    frame.Reached ctx (events ++ [event]) stage := by
  cases stage with
  | found => trivial
  | cleared =>
    have h : frame.Cleared ctx events := h
    exact h.later event
  | proven effect => exact ⟨h.1.later event, h.2.1.later event, h.2.2⟩
  | recorded effect =>
    exact ⟨⟨h.1.1.later event, h.1.2.1.later event, h.1.2.2⟩, h.2.later event⟩

/-- A dispatch that awaits is not disturbed by what happens to the stores. -/
theorem Sound.later {frame : DispatchFrame} (h : frame.Sound ctx events) (event : DispatchEvent)
    (hkept : OccurrencesKept (dispatchRun ctx events).schedules
      (dispatchRun ctx (events ++ [event])).schedules) :
    frame.Sound ctx (events ++ [event]) where
  generation := h.generation
  bound := h.bound.trans_le hkept.next
  kept o ho := by
    obtain ⟨p, hp, hpo⟩ := hkept.kept _ o ho h.bound
    exact (h.kept p hp).trans hpo
  read := h.read.later event
  reached := h.reached.later event

/-- A dispatch at its next stage. -/
theorem Sound.stage {frame : DispatchFrame} (h : frame.Sound ctx events) {stage : DispatchStage}
    (hreached : frame.Reached ctx events stage) :
    Sound ctx events { frame with stage := stage } :=
  ⟨h.generation, h.bound, h.kept, h.read, by cases stage <;> exact hreached⟩

end DispatchFrame

/-- What holds of the world after a run. -/
structure DispatchWorld.Sound (ctx : DispatchContext) (events : List DispatchEvent) : Prop where
  schedules : (dispatchRun ctx events).schedules.Sound ctx.schedules
  signals : (dispatchRun ctx events).signals.Sound ctx.signals.limits.maxWaitMatchesPerSignal
  dispatches : ∀ id frame, (dispatchRun ctx events).dispatches.get? id = some frame →
    frame.Sound ctx events

/-- The frames of a world when one dispatch has gone on. -/
theorem dispatches_run {world : DispatchWorld} {id : Nat}
    {program : DispatchProgram (Option DispatchFrame)} {j : Nat} {frame : DispatchFrame}
    (h : (world.run id program).dispatches.get? j = some frame) :
    world.dispatches.get? j = some frame ∨ (j = id ∧ ∃ stores,
      program world.toDispatchStores = .ok (some frame) stores) := by
  unfold DispatchWorld.run at h
  cases hprogram : program world.toDispatchStores with
  | error e stores =>
    rw [hprogram] at h
    have h : (world.dispatches.delete id).get? j = some frame := h
    rw [OrderedMap.get?_delete] at h
    split at h
    · cases h
    · exact Or.inl h
  | ok out stores =>
    cases out with
    | none =>
      rw [hprogram] at h
      have h : (world.dispatches.delete id).get? j = some frame := h
      rw [OrderedMap.get?_delete] at h
      split at h
      · cases h
      · exact Or.inl h
    | some next =>
      rw [hprogram] at h
      have h : (world.dispatches.set id next).get? j = some frame := h
      rw [OrderedMap.get?_set] at h
      split at h
      · rename_i hid
        obtain rfl := Option.some.inj h
        exact Or.inr ⟨hid.symm, stores, rfl⟩
      · exact Or.inl h

/-- What a program of a dispatch ends in holds of the stores it leaves. -/
theorem stores_run {world : DispatchWorld} {id : Nat}
    {program : DispatchProgram (Option DispatchFrame)} {P : DispatchStores → Prop}
    (h : Ends program world.toDispatchStores (fun _ next => P next) fun _ next => P next) :
    P (world.run id program).toDispatchStores := by
  unfold Ends at h
  unfold DispatchWorld.run
  cases hprogram : program world.toDispatchStores with
  | error e stores =>
    rw [hprogram] at h
    exact h
  | ok out stores =>
    rw [hprogram] at h
    cases out <;> exact h

/-- A signal that was recorded is stored. -/
theorem recordSignal_signalled {store next : InMemorySignalStore} {maxMatches : Nat}
    (hsound : store.Sound maxMatches) {draft : GameSignalDraft Decimal}
    (htimestamp : isCanonicalTimestamp draft.recordedAt = true) {result : SignalRecordResult}
    (h : recordSignal draft maxMatches store = .ok result next) :
    next.signals.get? draft.key ≠ none ∧
      next.signalFingerprints.get? draft.key = some (signalFingerprint draft) := by
  rcases Option.eq_none_or_eq_some (store.signals.get? draft.key) with hnew | ⟨existing, hstored⟩
  · rw [recordSignal_new hsound.waitTimestamp htimestamp hnew] at h
    split at h
    · cases h
    · cases h
      unfold InMemorySignalStore.withSignal
      refine ⟨?_, OrderedMap.get?_set_self ..⟩
      rw [OrderedMap.get?_set_self]
      exact Option.some_ne_none _
  · rw [recordSignal_stored hsound hstored] at h
    split at h
    · cases h
    · rename_i hsame
      cases h
      rw [hstored]
      exact ⟨Option.some_ne_none _, not_not.1 hsame⟩

/-- What every event keeps of the stores. -/
structure DispatchStores.Keeps (ctx : DispatchContext) (stores next : DispatchStores) : Prop where
  occurrences : OccurrencesKept stores.schedules next.schedules
  schedules : next.schedules.Sound ctx.schedules
  signals : next.signals.Sound ctx.signals.limits.maxWaitMatchesPerSignal

/-- The stores a dispatch that goes on leaves. -/
theorem DispatchFrame.Goes.stores {frame : DispatchFrame} {stores next : DispatchStores}
    {out : Option DispatchFrame} (h : frame.Goes ctx stores next out)
    (hschedules : stores.schedules.Sound ctx.schedules)
    (hsignals : stores.signals.Sound ctx.signals.limits.maxWaitMatchesPerSignal) :
    stores.Keeps ctx next := by
  cases h with
  | cleared _ same _ =>
    subst same
    exact ⟨.refl _, hschedules, hsignals⟩
  | proven effect _ _ token =>
    rcases token with ⟨-, rfl⟩ | ⟨-, hsame, r, hcomplete⟩
    · exact ⟨.refl _, hschedules, hsignals⟩
    · exact ⟨completeOccurrence_kept hschedules hcomplete,
        (completeOccurrence_spec hschedules hcomplete).sound hschedules, hsame ▸ hsignals⟩
  | recorded effect draft result _ same normalized record =>
    have hchanges := recordSignal_changes hsignals (normalizeGameSignal_recordedAt normalized)
    unfold Changes Ends at hchanges
    rw [record] at hchanges
    refine ⟨same ▸ .refl _, same ▸ hschedules, ?_⟩
    rcases hchanges with heq | hchange
    · rw [heq]
      exact hsignals
    · exact hsignals.change hchange
  | completed effect _ same r complete =>
    exact ⟨completeOccurrence_kept hschedules complete,
      (completeOccurrence_spec hschedules complete).sound hschedules, same ▸ hsignals⟩

namespace DispatchWorld.Sound

/-- What one event leaves of the stores. -/
theorem stores (h : DispatchWorld.Sound ctx events)
    (hallowed : event.Allowed ctx (dispatchRun ctx events)) :
    (dispatchRun ctx events).Keeps ctx
      (dispatchRun ctx (events ++ [event])).toDispatchStores := by
  rw [dispatchRun_concat]
  have hsame : ∀ next, next = (dispatchRun ctx events).toDispatchStores →
      (dispatchRun ctx events).Keeps ctx next := by
    rintro next rfl
    exact ⟨.refl _, h.schedules, h.signals⟩
  cases event with
  | schedules next =>
    have hpath : SchedulePath ctx.schedules (dispatchRun ctx events).schedules next := hallowed
    exact ⟨hpath.occurrencesKept h.schedules, hpath.sound h.schedules, h.signals⟩
  | signals request => exact ⟨.refl _, h.schedules, sound_signalStep h.signals request⟩
  | start id delivery completedAt aborted =>
    refine stores_run (P := (dispatchRun ctx events).Keeps ctx)
      (ends_map.2 (startDispatch_ends.mono ?_ ?_))
    · exact fun _ next hnext => hsame next hnext.1
    · exact fun _ next hnext => hsame next hnext
  | resume id aborted =>
    rcases Option.eq_none_or_eq_some ((dispatchRun ctx events).dispatches.get? id) with
      hnone | ⟨frame, hframe⟩
    · simp only [dispatchStep, hnone]
      exact hsame _ rfl
    · simp only [dispatchStep, hframe]
      have hends := resume_ends aborted h.signals
        (h.dispatches id frame hframe).generation
      exact stores_run (hends.mono
        (fun _ _ hgoes => hgoes.stores h.schedules h.signals) fun _ next hnext =>
          hsame next hnext)

/-- A dispatch that goes on is sound at its next stage. -/
theorem goes (h : DispatchWorld.Sound ctx events) {frame out : DispatchFrame}
    (hframe : frame.Sound ctx events)
    (hkept : OccurrencesKept (dispatchRun ctx events).schedules
      (dispatchRun ctx (events ++ [event])).schedules)
    (hgoes : frame.Goes ctx (dispatchRun ctx events).toDispatchStores
      (dispatchRun ctx (events ++ [event])).toDispatchStores (some out)) :
    out.Sound ctx (events ++ [event]) := by
  have hlater := hframe.later event hkept
  have hreached := hframe.reached
  cases hgoes with
  | cleared stage same isOpen =>
    have hcleared : frame.Cleared ctx events := ⟨events, List.prefix_rfl, isOpen⟩
    exact hlater.stage (hcleared.later event)
  | proven effect stage proves token =>
    rw [stage] at hreached
    have hcleared : frame.Cleared ctx events := hreached
    refine hlater.stage ⟨hcleared.later event, ?_, proves.normalized⟩
    rcases proves.current with hcompleted | hpending
    · refine Or.inr ⟨hcompleted, Before.later (.now ?_) event⟩
      rcases token with ⟨hnot, -⟩ | ⟨-, -, r, hcomplete⟩
      · exact absurd hcompleted hnot
      obtain ⟨o, ho, ⟨-, -, htoken⟩ | ⟨hnot, -⟩⟩ := completeOccurrence_cases hcomplete
      · rwa [(h.schedules.occurrence _ _ ho).1] at htoken
      · exact absurd ((hframe.kept o ho).completed hcompleted) hnot
    · exact Or.inl hpending
  | recorded effect draft result stage schedules normalized record =>
    rw [stage] at hreached
    have hdraft : draft = effect := Except.ok.inj
      (normalized.symm.trans (normalizeGameSignal_raw hreached.2.2))
    subst hdraft
    have hreached := hlater.reached
    rw [stage] at hreached
    exact hlater.stage ⟨hreached, .now (recordSignal_signalled h.signals
      (normalizeGameSignal_recordedAt normalized) record)⟩

/-- Every event keeps the world sound. -/
theorem step (h : DispatchWorld.Sound ctx events)
    (hallowed : event.Allowed ctx (dispatchRun ctx events)) :
    DispatchWorld.Sound ctx (events ++ [event]) := by
  obtain ⟨hkept, hschedules, hsignals⟩ := h.stores hallowed
  refine ⟨hschedules, hsignals, fun j frame hframe => ?_⟩
  have hold : ∀ j frame, (dispatchRun ctx events).dispatches.get? j = some frame →
      frame.Sound ctx (events ++ [event]) := fun j frame hframe =>
    (h.dispatches j frame hframe).later event hkept
  have hstep := hframe
  rw [dispatchRun_concat] at hstep
  cases event with
  | schedules next => exact hold j frame hstep
  | signals request => exact hold j frame hstep
  | start id delivery completedAt aborted =>
    rcases dispatches_run hstep with hget | ⟨-, next, hprogram⟩
    · exact hold j frame hget
    · have hends : Ends (some <$> startDispatch ctx delivery completedAt aborted)
          (dispatchRun ctx events).toDispatchStores
          (fun out _ => ∀ frame, out = some frame →
            frame.Reads (dispatchRun ctx events).schedules) fun _ _ => True := by
        refine ends_map.2 (startDispatch_ends.mono ?_ fun _ _ _ => trivial)
        rintro started next ⟨-, hreads⟩ frame hsome
        exact Option.some.inj hsome ▸ hreads
      unfold Ends at hends
      rw [hprogram] at hends
      have hreads := hends frame rfl
      have hsound : frame.Sound ctx events := by
        refine ⟨hreads.generation, h.schedules.freshOccurrence _ _ hreads.persisted, ?_,
          .now hreads.persisted, ?_⟩
        · intro o ho
          obtain rfl := Option.some.inj (hreads.persisted.symm.trans ho)
          exact .refl _
        · rw [hreads.stage]
          trivial
      exact hsound.later _ hkept
  | resume id aborted =>
    rcases Option.eq_none_or_eq_some ((dispatchRun ctx events).dispatches.get? id) with
      hnone | ⟨resumed, hresumed⟩
    · simp only [dispatchStep, hnone] at hstep
      exact hold j frame hstep
    · simp only [dispatchStep, hresumed] at hstep
      rcases dispatches_run hstep with hget | ⟨-, next, hprogram⟩
      · exact hold j frame hget
      · have hends := resume_ends aborted h.signals
          (h.dispatches id resumed hresumed).generation
        have hnext : (dispatchRun ctx (events ++ [.resume id aborted])).toDispatchStores =
            next := by
          rw [dispatchRun_concat]
          simp only [dispatchStep, hresumed, DispatchWorld.run, hprogram]
        unfold Ends at hends
        rw [hprogram, ← hnext] at hends
        exact h.goes (h.dispatches id resumed hresumed) hkept hends

end DispatchWorld.Sound

theorem DispatchesOf.init (h : DispatchesOf ctx (events ++ [event])) : DispatchesOf ctx events :=
  fun upto e he => h upto e (he.trans (List.prefix_append _ _))

/-- What holds of every run. -/
theorem sound_dispatchRun (h : DispatchesOf ctx events) : DispatchWorld.Sound ctx events := by
  induction events using List.reverseRecOn with
  | nil =>
    refine ⟨empty_sound, sound_empty, fun id frame hframe => ?_⟩
    exact absurd hframe (Option.some_ne_none _).symm
  | append_singleton events event ih => exact (ih h.init).step (h events event List.prefix_rfl)

/-! ## Counting what is inserted -/

/-- Count the steps of a run with a property. -/
def countSteps (ctx : DispatchContext)
    (p : DispatchWorld → DispatchEvent → DispatchWorld → Bool) :
    DispatchWorld → List DispatchEvent → Nat
  | _, [] => 0
  | world, event :: rest =>
    (p world event (dispatchStep ctx world event)).toNat +
      countSteps ctx p (dispatchStep ctx world event) rest

/-- A signal is stored. -/
def DispatchWorld.stores? (world : DispatchWorld) (key : GameSignalKey) : Bool :=
  (world.signals.signals.get? key).isSome

/-- A signal is inserted as a new one. -/
def inserts (key : GameSignalKey) (world : DispatchWorld) (_ : DispatchEvent)
    (next : DispatchWorld) : Bool :=
  !world.stores? key && next.stores? key

def DispatchEvent.isPurge : DispatchEvent → Bool
  | .signals (.purgeSignals _ _ _) => true
  | _ => false

/-- A purge of signals drops a signal. -/
def purges (key : GameSignalKey) (world : DispatchWorld) (event : DispatchEvent)
    (next : DispatchWorld) : Bool :=
  event.isPurge && world.stores? key && !next.stores? key

theorem countSteps_concat {p : DispatchWorld → DispatchEvent → DispatchWorld → Bool}
    (world : DispatchWorld) (events : List DispatchEvent) (event : DispatchEvent) :
    countSteps ctx p world (events ++ [event]) = countSteps ctx p world events +
      (p (events.foldl (dispatchStep ctx) world) event
        (dispatchStep ctx (events.foldl (dispatchStep ctx) world) event)).toNat := by
  induction events generalizing world with
  | nil => simp [countSteps]
  | cons first rest ih =>
    simp only [List.cons_append, countSteps, ih, List.foldl_cons, Nat.add_assoc]

/-! ### What other calls keep of the signals -/

/-- A program that drops no signal. -/
abbrev KeepsSignals {α : Type} (program : SignalProgram α) (store : InMemorySignalStore) : Prop :=
  Ends program store (fun _ next => ∀ key, store.signals.get? key ≠ none →
    next.signals.get? key ≠ none) fun _ next => ∀ key, store.signals.get? key ≠ none →
    next.signals.get? key ≠ none

section Signals

variable {store : InMemorySignalStore} {maxMatches : Nat}

theorem recordSignal_keepsSignals (hsound : store.Sound maxMatches)
    {draft : GameSignalDraft Decimal} (htimestamp : isCanonicalTimestamp draft.recordedAt = true) :
    KeepsSignals (recordSignal draft maxMatches) store := by
  unfold KeepsSignals Ends
  rcases Option.eq_none_or_eq_some (store.signals.get? draft.key) with hnew | ⟨existing, hstored⟩
  · rw [recordSignal_new hsound.waitTimestamp htimestamp hnew]
    by_cases hfanout : maxMatches < (store.wakes (store.nextSignal draft)).length
    · rw [if_pos hfanout]
      exact fun key h => h
    · rw [if_neg hfanout]
      intro key h
      show (store.signals.set draft.key _).get? key ≠ none
      rw [OrderedMap.get?_set]
      split
      · exact Option.some_ne_none _
      · exact h
  · rw [recordSignal_stored hsound hstored]
    by_cases hconflict : store.signalFingerprints.get? draft.key ≠ some (signalFingerprint draft)
    · rw [if_pos hconflict]
      exact fun key h => h
    · rw [if_neg hconflict]
      exact fun key h => h

theorem registerWait_keepsSignals (hsound : store.Sound maxMatches)
    {draft : SignalWaitDraft Decimal} (htimestamp : isCanonicalTimestamp draft.recordedAt = true) :
    KeepsSignals (registerWait draft maxMatches) store := by
  unfold KeepsSignals Ends
  rcases Option.eq_none_or_eq_some (store.waits.get? draft.key) with hnew | ⟨existing, hstored⟩
  · rw [registerWait_new hsound.signalTimestamp htimestamp hnew]
    by_cases hroom : store.hasRoom draft maxMatches = true
    · rw [if_pos hroom]
      exact fun key h => h
    · rw [if_neg hroom]
      exact fun key h => h
  · rw [registerWait_stored hstored]
    by_cases hconflict :
        store.waitFingerprints.get? draft.key ≠ some (signalWaitFingerprint draft)
    · rw [if_pos hconflict]
      exact fun key h => h
    · rw [if_neg hconflict]
      exact fun key h => h

theorem rewriteWaits_keepsSignals
    {change : SignalWaitRecord → Except SignalError SignalWaitRecord}
    {l : List (SignalWaitKey × SignalWaitRecord)} : KeepsSignals (rewriteWaits change l) store := by
  induction l generalizing store with
  | nil => exact fun key h => h
  | cons e l ih =>
    obtain ⟨key, wait⟩ := e
    refine ends_bind.2 (ends_attempt.2 ⟨fun updated _ => ?_, fun _ _ key h => h⟩)
    refine ends_bind.2 (ends_modify.2 ?_)
    exact ih

theorem findWait_keepsSignals {key : SignalWaitKey} {expectedRevision : Decimal} :
    KeepsSignals (findWait key expectedRevision) store := by
  unfold KeepsSignals findWait
  rw [ends_bind, ends_get]
  rcases Option.eq_none_or_eq_some (store.waits.get? key) with hnone | ⟨current, hcurrent⟩
  · simp only [hnone]
    exact fun key h => h
  · simp only [hcurrent]
    split
    · exact fun key h => h
    · exact fun key h => h

theorem cancelWait_keepsSignals {key : SignalWaitKey} {expectedRevision : Decimal}
    {recordedAt : String} : KeepsSignals (cancelWait key expectedRevision recordedAt) store := by
  unfold KeepsSignals cancelWait
  rw [ends_bind, ends_get]
  rcases Option.eq_none_or_eq_some (store.waits.get? key) with hnone | ⟨current, hcurrent⟩
  · simp only [hnone]
    exact fun key h => h
  · simp only [hcurrent]
    split
    · exact fun key h => h
    split
    · exact fun key h => h
    · refine ends_bind.2 (ends_attempt.2 ⟨fun updatedAt _ => ?_, fun _ _ key h => h⟩)
      exact fun key h => h

/-- Only a purge of signals drops a signal. -/
theorem signalStep_keepsSignals {ctx : SignalContext}
    (hsound : store.Sound ctx.limits.maxWaitMatchesPerSignal) {request : SignalRequest}
    (hpurge : (DispatchEvent.signals request).isPurge = false) :
    KeepsSignals (request.run ctx) store := by
  cases request with
  | record input =>
    refine ends_bind.2 (ends_attempt.2 ⟨fun draft hdraft => ?_, fun _ _ key h => h⟩)
    exact ends_bind.2 (recordSignal_keepsSignals hsound (normalizeGameSignal_recordedAt hdraft))
  | registerWait input =>
    refine ends_bind.2 (ends_attempt.2 ⟨fun draft hdraft => ?_, fun _ _ key h => h⟩)
    exact ends_bind.2 (registerWait_keepsSignals hsound (normalizeSignalWait_recordedAt hdraft))
  | findWait key expectedRevision recordedAt =>
    refine ends_bind.2 (ends_attempt.2 ⟨fun checked _ => ?_, fun _ _ key h => h⟩)
    exact ends_bind.2 findWait_keepsSignals
  | cancelWait key expectedRevision recordedAt =>
    refine ends_bind.2 (ends_attempt.2 ⟨fun checked _ => ?_, fun _ _ key h => h⟩)
    exact ends_bind.2 cancelWait_keepsSignals
  | expireWaits partition throughTickInclusive recordedAt limit =>
    refine ends_bind.2 (ends_attempt.2 ⟨fun checked _ => ?_, fun _ _ key h => h⟩)
    exact ends_bind.2 (ends_bind.2 (ends_bind.2 rewriteWaits_keepsSignals))
  | purgeTerminalWaits partition beforeRecordedAt limit =>
    refine ends_bind.2 (ends_attempt.2 ⟨fun checked _ => ?_, fun _ _ key h => h⟩)
    exact fun key h => h
  | purgeSignals partition beforeRecordedAt limit => cases hpurge

end Signals

/-- Only a purge of signals drops a signal, in a dispatch or elsewhere. -/
theorem DispatchWorld.Sound.keepsSignals (h : DispatchWorld.Sound ctx events)
    (hpurge : event.isPurge = false) (key : GameSignalKey)
    (hstored : (dispatchRun ctx events).signals.signals.get? key ≠ none) :
    (dispatchRun ctx (events ++ [event])).signals.signals.get? key ≠ none := by
  rw [dispatchRun_concat]
  cases event with
  | schedules next => exact hstored
  | signals request =>
    have hends := (signalStep_keepsSignals h.signals hpurge).respond
    show (respond (request.run ctx.signals) (dispatchRun ctx events).signals).2.signals.get?
      key ≠ none
    cases hanswer : (respond (request.run ctx.signals) (dispatchRun ctx events).signals).1 with
    | ok answer => exact hends.1 answer hanswer key hstored
    | error e => exact hends.2 e hanswer key hstored
  | start id delivery completedAt aborted =>
    refine stores_run (P := fun next => next.signals.signals.get? key ≠ none)
      (ends_map.2 (startDispatch_ends.mono ?_ ?_))
    · rintro _ next ⟨rfl, -⟩
      exact hstored
    · rintro _ next rfl
      exact hstored
  | resume id aborted =>
    rcases Option.eq_none_or_eq_some ((dispatchRun ctx events).dispatches.get? id) with
      hnone | ⟨frame, hframe⟩
    · simp only [dispatchStep, hnone]
      exact hstored
    · simp only [dispatchStep, hframe]
      refine stores_run (P := fun next => next.signals.signals.get? key ≠ none)
        ((resume_ends aborted h.signals (h.dispatches id frame hframe).generation).mono ?_ ?_)
      · intro out next hgoes
        cases hgoes with
        | cleared _ same _ => exact same ▸ hstored
        | proven effect _ _ token =>
          rcases token with ⟨-, rfl⟩ | ⟨-, hsame, -⟩
          · exact hstored
          · rw [hsame]
            exact hstored
        | recorded effect draft result _ _ normalized record =>
          have hends := recordSignal_keepsSignals h.signals
            (normalizeGameSignal_recordedAt normalized)
          unfold KeepsSignals Ends at hends
          rw [record] at hends
          exact hends key hstored
        | completed effect _ same r _ => exact same ▸ hstored
      · rintro _ next rfl
        exact hstored

/-- A signal was inserted as often as it was purged, and once more if it is stored. -/
theorem countSteps_inserts (h : DispatchesOf ctx events) (key : GameSignalKey) :
    countSteps ctx (inserts key) .empty events =
      countSteps ctx (purges key) .empty events + ((dispatchRun ctx events).stores? key).toNat := by
  induction events using List.reverseRecOn with
  | nil => rfl
  | append_singleton events event ih =>
    have hkeeps : event.isPurge = false → ∀ key, _ → _ :=
      (sound_dispatchRun h.init).keepsSignals
    have ih := ih h.init
    rw [countSteps_concat, countSteps_concat, ih]
    have hrun : events.foldl (dispatchStep ctx) .empty = dispatchRun ctx events := rfl
    rw [hrun, ← dispatchRun_concat]
    unfold inserts purges
    cases hbefore : (dispatchRun ctx events).stores? key <;>
      cases hafter : (dispatchRun ctx (events ++ [event])).stores? key <;>
        cases hpurge : event.isPurge <;> simp
    -- a signal that is gone was purged
    have hstored := hkeeps hpurge key (Option.isSome_iff_ne_none.1 hbefore)
    exact absurd (Option.isSome_iff_ne_none.2 hstored) (Bool.eq_false_iff.1 hafter)

end OpenGameAgent
