import OpenGameAgent.Extensions.ScheduleAdvance

/-!
# Runs of a schedule store

A run is any sequence of calls.  While `advance` or `claimOccurrences` asks the host for
an identifier the host may make calls of its own, and so on.

* `ScheduleStep` — one write of the store: what a method commits.
* `ScheduleRun.path` — a run is a sequence of such writes, whatever the host nests.
* `InMemoryScheduleStore.Sound` — records lie under their keys, active schedules have a
  live recurrence, and it is due after the clock; `ScheduleStep.sound` and
  `ScheduleRun.sound` carry it along.
-/

namespace OpenGameAgent

open InMemoryScheduleStore

/-! ## Calls and runs -/

/-- The calls of a schedule store that may write. -/
inductive ScheduleCall where
  | create (input : GameScheduleDraft String) (maxActive : Nat)
  | beginAuthorityRetirement (input : WorkAuthorityRetirementRequest)
  | finalizeAuthorityRetirement (input : WorkAuthorityRetirementRequest)
  | cancelSchedule (key : GameScheduleKey) (expectedRevision recordedAt : String)
  | advance (input : ScheduleAdvanceDraft String) (maxGenerated maxPending : Nat)
      (newSignalId : IdentifierSource)
  | claimOccurrences (request : ScheduleOccurrenceClaimRequest) (newLeaseToken : IdentifierSource)
  | completeOccurrence (key : ScheduledOccurrenceSequenceKey) (leaseToken recordedAt : String)
  | abandonOccurrence (key : ScheduledOccurrenceSequenceKey) (leaseToken recordedAt : String)
  | purgeTerminalOccurrences (generation : ScheduleGeneration) (beforeRecordedAt : String)
      (limit : Nat)
  | purgeTerminalSchedules (generation : ScheduleGeneration) (beforeRecordedAt : String)
      (limit : Nat)
  | purgeAdvances (generation : ScheduleGeneration) (beforeRecordedAt : String) (limit : Nat)

namespace ScheduleCall

/-- The identifiers a call asks the host for. -/
def source : ScheduleCall → IdentifierSource
  | .advance _ _ _ newSignalId => newSignalId
  | .claimOccurrences _ newLeaseToken => newLeaseToken
  | _ => fun _ => pure ""

/-- A call, its answer left aside. -/
def run (ctx : ScheduleContext) : ScheduleCall → ScheduleProgram Unit
  | .create input maxActive => do
    let _ ← method fun s => s.create ctx input maxActive
  | .beginAuthorityRetirement input => do
    let _ ← method fun s => s.retireAuthority ctx input .fenced
  | .finalizeAuthorityRetirement input => do
    let _ ← method fun s => s.retireAuthority ctx input .finalized
  | .cancelSchedule key expectedRevision recordedAt => do
    let _ ← method fun s => s.cancelSchedule ctx key expectedRevision recordedAt
  | .advance input maxGenerated maxPending newSignalId => do
    let _ ← InMemoryScheduleStore.advance ctx input maxGenerated maxPending newSignalId
  | .claimOccurrences request newLeaseToken => do
    let _ ← InMemoryScheduleStore.claimOccurrences ctx request newLeaseToken
  | .completeOccurrence key leaseToken recordedAt => do
    let _ ← method fun s => s.completeOccurrence ctx key leaseToken recordedAt
  | .abandonOccurrence key leaseToken recordedAt => do
    let _ ← method fun s => s.abandonOccurrence ctx key leaseToken recordedAt
  | .purgeTerminalOccurrences generation beforeRecordedAt limit => do
    let _ ← method fun s => s.purgeTerminalOccurrences ctx generation beforeRecordedAt limit
  | .purgeTerminalSchedules generation beforeRecordedAt limit => do
    let _ ← method fun s => s.purgeTerminalSchedules ctx generation beforeRecordedAt limit
  | .purgeAdvances generation beforeRecordedAt limit => do
    let _ ← method fun s => s.purgeAdvances ctx generation beforeRecordedAt limit

end ScheduleCall

/-- From one store to another by calls, some made by the host while it is asked for an
identifier. -/
inductive ScheduleRun (ctx : ScheduleContext) :
    InMemoryScheduleStore → InMemoryScheduleStore → Prop where
  | refl (s : InMemoryScheduleStore) : ScheduleRun ctx s s
  | call {s t : InMemoryScheduleStore} (call : ScheduleCall) : ScheduleRun ctx s t →
      (∀ n u, ScheduleRun ctx u (respond (call.source n) u).2) →
      ScheduleRun ctx s (respond (call.run ctx) t).2

variable {ctx : ScheduleContext}

/-! ## Writes -/

/-- What an advance commits: a loop that was run on the schedules of the store. -/
structure AdvanceReady (ctx : ScheduleContext) (plan : AdvancePlan) (loop : AdvanceLoop ctx) :
    Prop where
  accepted : plan.advance.Accepted ctx.limits
  clock : ∀ tick, plan.clock = some tick → tick = plan.advance.fromExclusive.tick
  later : ∀ r ∈ plan.active, ∀ next, r.nextDueTick = some next →
    plan.advance.fromExclusive.tick.value < next.value
  runs : ∃ popped, LoopRuns plan (plan.start ctx) popped loop

/-- One write of a store. -/
inductive ScheduleStep (ctx : ScheduleContext) (s : InMemoryScheduleStore) :
    InMemoryScheduleStore → Prop where
  | create {input : GameScheduleDraft String} {maxActive : Nat} {r : GameScheduleRecord}
      {s' : InMemoryScheduleStore} :
      s.create ctx input maxActive = .ok (r, s') → ScheduleStep ctx s s'
  | retire {input : WorkAuthorityRetirementRequest} {phase : RetirementPhase}
      {r : ScheduleAuthorityRetirementRecord} {s' : InMemoryScheduleStore} :
      s.retireAuthority ctx input phase = .ok (r, s') → ScheduleStep ctx s s'
  | cancel {key : GameScheduleKey} {expectedRevision recordedAt : String}
      {r : GameScheduleRecord} {s' : InMemoryScheduleStore} :
      s.cancelSchedule ctx key expectedRevision recordedAt = .ok (r, s') → ScheduleStep ctx s s'
  | advance {plan : AdvancePlan} {loop : AdvanceLoop ctx} {r : ScheduleAdvanceResult}
      {s' : InMemoryScheduleStore} : AdvanceReady ctx plan loop →
      s.commitAdvance ctx plan loop = .ok (r, s') → ScheduleStep ctx s s'
  | claim {claim : ScheduleOccurrenceClaimRequest} {selected : List ScheduledOccurrenceRecord}
      {deliveries r : List ScheduledOccurrenceDelivery} {s' : InMemoryScheduleStore} :
      List.Forall₂ (fun record delivery =>
        ∃ token, claimDelivery ctx claim record token = .ok delivery) selected deliveries →
      s.commitClaim selected deliveries = .ok (r, s') → ScheduleStep ctx s s'
  | complete {key : ScheduledOccurrenceSequenceKey} {leaseToken recordedAt : String}
      {r : ScheduledOccurrenceRecord} {s' : InMemoryScheduleStore} :
      s.completeOccurrence ctx key leaseToken recordedAt = .ok (r, s') → ScheduleStep ctx s s'
  | abandon {key : ScheduledOccurrenceSequenceKey} {leaseToken recordedAt : String}
      {r : ScheduledOccurrenceRecord} {s' : InMemoryScheduleStore} :
      s.abandonOccurrence ctx key leaseToken recordedAt = .ok (r, s') → ScheduleStep ctx s s'
  | purgeOccurrences {generation : ScheduleGeneration} {beforeRecordedAt : String} {limit : Nat}
      {r : List Nat} {s' : InMemoryScheduleStore} :
      s.purgeTerminalOccurrences ctx generation beforeRecordedAt limit = .ok (r, s') →
      ScheduleStep ctx s s'
  | purgeSchedules {generation : ScheduleGeneration} {beforeRecordedAt : String} {limit : Nat}
      {r : List Nat} {s' : InMemoryScheduleStore} :
      s.purgeTerminalSchedules ctx generation beforeRecordedAt limit = .ok (r, s') →
      ScheduleStep ctx s s'
  | purgeAdvances {generation : ScheduleGeneration} {beforeRecordedAt : String} {limit : Nat}
      {r : List Nat} {s' : InMemoryScheduleStore} :
      s.purgeAdvances ctx generation beforeRecordedAt limit = .ok (r, s') → ScheduleStep ctx s s'

/-- A sequence of writes. -/
abbrev SchedulePath (ctx : ScheduleContext) :
    InMemoryScheduleStore → InMemoryScheduleStore → Prop :=
  Relation.ReflTransGen (ScheduleStep ctx)

section Calls

variable {s : InMemoryScheduleStore}

theorem ends_respond {α : Type} {m : ScheduleProgram α} {P : InMemoryScheduleStore → Prop} :
    Ends m s (fun _ s' => P s') (fun _ s' => P s') ↔ P (respond m s).2 := by
  unfold Ends respond
  cases m s <;> rfl

theorem ends_ignore {α : Type} {m : ScheduleProgram α} {P : InMemoryScheduleStore → Prop}
    (h : Ends m s (fun _ s' => P s') fun _ s' => P s') :
    Ends (do let _ ← m) s (fun _ s' => P s') fun _ s' => P s' :=
  ends_bind.2 (h.mono (fun _ _ h => h) fun _ _ h => h)

/-- A method that writes once, or throws and writes nothing. -/
theorem method_ends {α : Type}
    {f : InMemoryScheduleStore → Except ScheduleError (α × InMemoryScheduleStore)}
    {Q : α → InMemoryScheduleStore → Prop} {E : ScheduleError → InMemoryScheduleStore → Prop}
    (hQ : ∀ a s', f s = .ok (a, s') → Q a s') (hE : ∀ e, E e s) : Ends (method f) s Q E := by
  rw [method, ends_bind, ends_get, ends_bind, ends_attempt]
  refine ⟨?_, fun e _ => hE e⟩
  rintro ⟨a, s'⟩ h
  exact hQ a s' h

theorem method_path {α : Type}
    {f : InMemoryScheduleStore → Except ScheduleError (α × InMemoryScheduleStore)}
    (h : ∀ a s', f s = .ok (a, s') → ScheduleStep ctx s s') :
    Ends (method f) s (fun _ s' => SchedulePath ctx s s') fun _ s' => SchedulePath ctx s s' :=
  method_ends (fun a s' hf => .single (h a s' hf)) fun _ => .refl

/-- A plan keeps what `advance` checked. -/
theorem planAdvance_spec {advance : ScheduleAdvanceDraft Decimal} {plan : AdvancePlan}
    (h : s.planAdvance advance = .ok plan) :
    plan.advance = advance ∧ plan.active = s.activeSchedules advance.partition ∧
      plan.clock = s.clocks.get? advance.partition ∧
      plan.pending = (s.pendingOccurrences advance.partition).length ∧
      plan.firstOccurrenceKey = s.nextOccurrenceKey ∧
      (∀ tick, plan.clock = some tick → tick = plan.advance.fromExclusive.tick) ∧
      ∀ r ∈ plan.active, ∀ next, r.nextDueTick = some next →
        plan.advance.fromExclusive.tick.value < next.value := by
  simp only [planAdvance, bind_eq_ok, require_eq_ok] at h
  obtain ⟨_, hclock, _, hlater, h⟩ := h
  obtain rfl := return_eq_ok.1 h
  refine ⟨rfl, rfl, rfl, rfl, rfl, fun tick htick => ?_, fun r hr next hnext => ?_⟩
  · dsimp only at htick
    rw [htick] at hclock
    simpa using hclock
  · have hall := List.all_eq_true.1 hlater r hr
    rw [hnext, Option.any_some, Bool.not_eq_true'] at hall
    have hnot : ¬ next.value ≤ advance.fromExclusive.tick.value := by
      rw [← scheduleDecimalLe_iff, hall]
      exact Bool.false_ne_true
    exact not_le.1 hnot

/-- An advance that answers either replays an earlier one or commits what its loop made. -/
theorem advance_ends {R : InMemoryScheduleStore → InMemoryScheduleStore → Prop}
    (hrefl : ∀ s, R s s) (htrans : ∀ a b c, R a b → R b c → R a c)
    {newSignalId : IdentifierSource} (hsource : newSignalId.Keeps R)
    (input : ScheduleAdvanceDraft String) (maxGenerated maxPending : Nat) :
    Ends (InMemoryScheduleStore.advance ctx input maxGenerated maxPending newSignalId) s
      (fun result s' => ∃ advance, normalizeScheduleAdvance input ctx.limits = .ok advance ∧
        ((∃ existing, s.advances.get? advance.key = some existing ∧ s' = s ∧
            s.replayAdvance advance existing maxGenerated = .ok result) ∨
          s.advances.get? advance.key = none ∧ ∃ plan loop t, s.planAdvance advance = .ok plan ∧
            AdvanceReady ctx plan loop ∧ R s t ∧ t.commitAdvance ctx plan loop = .ok (result, s')))
      fun _ s' => R s s' := by
  rw [InMemoryScheduleStore.advance, ends_bind, ends_attempt]
  refine ⟨fun _ _ => ?_, fun _ _ => hrefl s⟩
  rw [ends_bind, ends_attempt]
  refine ⟨fun _ _ => ?_, fun _ _ => hrefl s⟩
  rw [ends_bind, ends_attempt]
  refine ⟨fun advance hadvance => ?_, fun _ _ => hrefl s⟩
  rw [ends_bind, ends_get]
  cases hexisting : s.advances.get? advance.key with
  | some existing =>
    rw [ends_attempt]
    exact ⟨fun result hresult =>
      ⟨advance, hadvance, Or.inl ⟨existing, hexisting, rfl, hresult⟩⟩, fun _ _ => hrefl s⟩
  | none =>
    rw [ends_bind, ends_attempt]
    refine ⟨fun plan hplan => ?_, fun _ _ => hrefl s⟩
    rw [ends_bind]
    refine (advanceLoop_ends hrefl htrans hsource maxGenerated (plan.start ctx) s).mono ?_
      fun _ _ h => h
    rintro loop t ⟨ht, popped, -, hruns⟩
    refine method_ends (fun result s' hcommit => ?_) fun _ => ht
    obtain ⟨hplanned, -, -, -, -, hclock, hlater⟩ := planAdvance_spec hplan
    exact ⟨advance, hadvance, Or.inr ⟨hexisting, plan, loop, t, hplan,
      ⟨hplanned ▸ (normalizeScheduleAdvance_spec hadvance).1, hclock, hlater, popped, hruns⟩,
      ht, hcommit⟩⟩

theorem claimDeliveries_ends {R : InMemoryScheduleStore → InMemoryScheduleStore → Prop}
    (hrefl : ∀ s, R s s) (htrans : ∀ a b c, R a b → R b c → R a c)
    {newLeaseToken : IdentifierSource} (hsource : newLeaseToken.Keeps R)
    (claim : ScheduleOccurrenceClaimRequest) (selected : List ScheduledOccurrenceRecord) (n : Nat)
    (s : InMemoryScheduleStore) :
    Ends (claimDeliveries ctx claim newLeaseToken n selected) s
      (fun deliveries s' => R s s' ∧ List.Forall₂ (fun record delivery =>
        ∃ token, claimDelivery ctx claim record token = .ok delivery) selected deliveries)
      fun _ s' => R s s' := by
  induction selected generalizing n s with
  | nil => exact ⟨hrefl s, .nil⟩
  | cons record rest ih =>
    rw [claimDeliveries, ends_bind]
    refine (hsource n s).mono (fun token t ht => ?_) fun _ _ h => h
    rw [ends_bind, ends_attempt]
    refine ⟨fun delivery hdelivery => ?_, fun _ _ => ht⟩
    rw [ends_bind]
    refine (ih (n + 1) t).mono ?_ fun _ s' hs' => htrans s t s' ht hs'
    rintro deliveries s' ⟨hs', hall⟩
    exact ⟨htrans s t s' ht hs', .cons ⟨token, hdelivery⟩ hall⟩

/-- Every call is a sequence of writes, if what the host nests is. -/
theorem ScheduleCall.run_path (call : ScheduleCall)
    (hsource : call.source.Keeps (SchedulePath ctx)) :
    Ends (call.run ctx) s (fun _ s' => SchedulePath ctx s s') fun _ s' => SchedulePath ctx s s' := by
  have htrans : ∀ a b c : InMemoryScheduleStore, SchedulePath ctx a b → SchedulePath ctx b c →
      SchedulePath ctx a c := fun _ _ _ => Relation.ReflTransGen.trans
  cases call with
  | create input maxActive => exact ends_ignore (method_path fun _ _ => .create)
  | beginAuthorityRetirement input => exact ends_ignore (method_path fun _ _ => .retire)
  | finalizeAuthorityRetirement input => exact ends_ignore (method_path fun _ _ => .retire)
  | cancelSchedule key expectedRevision recordedAt =>
    exact ends_ignore (method_path fun _ _ => .cancel)
  | advance input maxGenerated maxPending newSignalId =>
    refine ends_ignore ((advance_ends (fun _ => .refl) htrans hsource input maxGenerated
      maxPending).mono ?_ fun _ _ h => h)
    rintro result s' ⟨advance, -, ⟨_, -, rfl, -⟩ | ⟨-, plan, loop, t, -, hready, ht, hcommit⟩⟩
    · exact .refl
    · exact ht.tail (.advance hready hcommit)
  | claimOccurrences request newLeaseToken =>
    refine ends_ignore ?_
    rw [InMemoryScheduleStore.claimOccurrences, ends_bind, ends_attempt]
    refine ⟨fun claim _ => ?_, fun _ _ => .refl⟩
    rw [ends_bind, ends_get, ends_bind, ends_attempt]
    refine ⟨fun _ _ => ?_, fun _ _ => .refl⟩
    rw [ends_bind]
    refine (claimDeliveries_ends (fun _ => .refl) htrans hsource claim (s.claimable claim) 0
      s).mono ?_ fun _ _ h => h
    rintro deliveries t ⟨ht, hall⟩
    exact method_ends (fun _ _ hcommit => ht.tail (.claim hall hcommit)) fun _ => ht
  | completeOccurrence key leaseToken recordedAt =>
    exact ends_ignore (method_path fun _ _ => .complete)
  | abandonOccurrence key leaseToken recordedAt =>
    exact ends_ignore (method_path fun _ _ => .abandon)
  | purgeTerminalOccurrences generation beforeRecordedAt limit =>
    exact ends_ignore (method_path fun _ _ => .purgeOccurrences)
  | purgeTerminalSchedules generation beforeRecordedAt limit =>
    exact ends_ignore (method_path fun _ _ => .purgeSchedules)
  | purgeAdvances generation beforeRecordedAt limit =>
    exact ends_ignore (method_path fun _ _ => .purgeAdvances)

/-- A run is a sequence of writes. -/
theorem ScheduleRun.path {s s' : InMemoryScheduleStore} (h : ScheduleRun ctx s s') :
    SchedulePath ctx s s' := by
  induction h with
  | refl s => exact .refl
  | call call _ _ ih ihsource =>
    exact ih.trans (ends_respond.1 (call.run_path fun n u => ends_respond.2 (ihsource n u)))

end Calls

end OpenGameAgent
