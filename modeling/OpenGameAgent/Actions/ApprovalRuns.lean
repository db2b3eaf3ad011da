import Mathlib.Data.List.Induction
import OpenGameAgent.Actions.Approvals
import OpenGameAgent.Actions.Records

/-!
# Approvals stay valid

Whether `InMemoryActionApprovalStore` ever holds a record that its own operations refuse.

`ActionApprovalRecord.Accepted` is what `assertActionApprovalRecord` checks, one case a
status.  A decision is compared with the time of the request and an expiry with its end, so
both leave an accepted record.  A consumption is compared with the end alone: where the
clock has stepped back behind the decision, the record it leaves is refused by everything
that reads it afterwards.

* `assertActionApprovalRecord_eq_ok_iff` — the checks and `Accepted` say the same.
* `accepted_decide`, `accepted_expire`, `accepted_consume_iff` — one transition.
* `advance_accepted_iff`, `accepted_call_iff` — one call of the store.
* `approvals_stay_valid_iff` — every transition and every run.
-/

namespace OpenGameAgent

variable {ctx : ActionContext}

/-! ## Accepted records -/

theorem shared_eq_ok {α : Type} {x : Except ActionError α} {a : α} :
    shared x = .ok a ↔ x = .ok a := by
  cases x <;> simp [shared, Except.mapError]

/-- What `assertActionApprovalRecord` checks of a decision. -/
structure ActionApprovalDecision.Fits (decision : ActionApprovalDecision)
    (request : ActionApprovalRequest) : Prop where
  reviewer : isOpaqueIdentifier decision.reviewerId = true
  decided : isCanonicalTimestamp decision.decidedAt = true
  requested : request.requestedAt ≤ decision.decidedAt
  unexpired : decision.decidedAt < request.expiresAt

theorem assertApprovalDecision_eq_ok_iff {request : ActionApprovalRequest}
    {decision : ActionApprovalDecision} :
    assertApprovalDecision request decision = .ok () ↔ decision.Fits request := by
  rw [assertApprovalDecision, check_eq_ok, check_eq_ok, shared_eq_ok, shared_eq_ok, demand_eq_ok,
    assertOpaqueIdentifier_eq_ok_iff, validateTimestamp_eq_ok_iff]
  simp only [Bool.not_eq_true', Bool.or_eq_false_iff, decide_eq_false_iff_not, not_lt, not_le]
  constructor
  · rintro ⟨hreviewer, hdecided, hrequested, hunexpired⟩
    exact ⟨hreviewer, hdecided, hrequested, hunexpired⟩
  · rintro ⟨hreviewer, hdecided, hrequested, hunexpired⟩
    exact ⟨hreviewer, hdecided, hrequested, hunexpired⟩

namespace ActionApprovalRecord

/-- How the members of a record agree with its status. -/
def StatusFits (record : ActionApprovalRecord) : Prop :=
  match record.status with
  | .pending => record.decision = none ∧ record.consumedAt = none
  | .approved => ∃ decision, record.decision = some decision ∧
      decision.decision = .approved ∧ record.updatedAt = decision.decidedAt ∧
      record.consumedAt = none
  | .rejected => ∃ decision, record.decision = some decision ∧
      decision.decision = .rejected ∧ record.updatedAt = decision.decidedAt ∧
      record.consumedAt = none
  | .consumed => ∃ decision, record.decision = some decision ∧
      decision.decision = .approved ∧ record.consumedAt = some record.updatedAt ∧
      decision.decidedAt ≤ record.updatedAt ∧ record.updatedAt < record.request.expiresAt
  | .expired => record.updatedAt = record.request.expiresAt ∧ record.consumedAt = none

/-- What `assertActionApprovalRecord` checks. -/
structure Accepted (ctx : ActionContext) (record : ActionApprovalRecord) : Prop where
  request : assertActionApprovalRequest ctx record.request = .ok ()
  revision : 0 < record.revision
  updated : isCanonicalTimestamp record.updatedAt = true
  decision : ∀ decision, record.decision = some decision → decision.Fits record.request
  status : record.StatusFits

end ActionApprovalRecord

/-- The checks of a consumption, on the record it belongs to. -/
theorem assertApprovalConsumption_eq_ok_iff {record : ActionApprovalRecord} {consumedAt : String} :
    assertApprovalConsumption record consumedAt = .ok () ↔
      isCanonicalTimestamp consumedAt = true ∧
        (∃ decision, record.decision = some decision ∧ decision.decidedAt ≤ consumedAt) ∧
        consumedAt < record.request.expiresAt ∧ record.updatedAt = consumedAt := by
  rw [assertApprovalConsumption, check_eq_ok, shared_eq_ok, demand_eq_ok,
    validateTimestamp_eq_ok_iff]
  simp only [Bool.and_eq_true, Option.any_eq_true, Bool.not_eq_true', decide_eq_false_iff_not,
    not_lt, not_le, decide_eq_true_eq, and_assoc]

theorem assertActionApprovalRecord_eq_ok_iff {record : ActionApprovalRecord} :
    assertActionApprovalRecord ctx record = .ok () ↔ record.Accepted ctx := by
  simp only [assertActionApprovalRecord, check_eq_ok, demand_eq_ok, shared_eq_ok,
    validateTimestamp_eq_ok_iff, option_forM_eq_ok, assertApprovalDecision_eq_ok_iff,
    assertApprovalConsumption_eq_ok_iff, decide_eq_true_eq]
  obtain ⟨request, status, revision, updatedAt, decision, consumedAt⟩ := record
  constructor
  · rintro ⟨hrequest, hrevision, hupdated, hdecision, hrest⟩
    refine ⟨hrequest, hrevision, hupdated, hdecision, ?_⟩
    cases status <;> cases decision <;> cases consumedAt <;>
      simp_all [ActionApprovalRecord.StatusFits]
  · rintro ⟨hrequest, hrevision, hupdated, hdecision, hstatus⟩
    refine ⟨hrequest, hrevision, hupdated, hdecision, ?_⟩
    cases status <;> cases decision <;> cases consumedAt <;>
      simp_all [ActionApprovalRecord.StatusFits]

/-! ## One transition -/

section Transitions

variable {current next : ActionApprovalRecord}

theorem canonical_expiresAt {request : ActionApprovalRequest}
    (h : assertActionApprovalRequest ctx request = .ok ()) :
    isCanonicalTimestamp request.expiresAt = true := by
  simp only [assertActionApprovalRequest, check_eq_ok, shared_eq_ok,
    validateTimestamp_eq_ok_iff] at h
  obtain ⟨-, -, -, -, -, -, -, -, -, hexpires, -⟩ := h
  exact hexpires

/-- A record that nothing has consumed may expire. -/
theorem ActionApprovalRecord.Accepted.expired (h : current.Accepted ctx)
    (hconsumed : current.consumedAt = none) :
    (current.advanceApproval .expired current.request.expiresAt).Accepted ctx where
  request := h.request
  revision := Nat.succ_pos _
  updated := canonical_expiresAt h.request
  decision := h.decision
  status := ⟨rfl, hconsumed⟩

theorem ActionApprovalRecord.Accepted.unconsumed (h : current.Accepted ctx)
    (hstatus : current.status ≠ .consumed) : current.consumedAt = none := by
  have hfits := h.status
  unfold ActionApprovalRecord.StatusFits at hfits
  cases hcase : current.status with
  | pending => rw [hcase] at hfits; exact hfits.2
  | approved => rw [hcase] at hfits; obtain ⟨_, -, -, -, hnone⟩ := hfits; exact hnone
  | rejected => rw [hcase] at hfits; obtain ⟨_, -, -, -, hnone⟩ := hfits; exact hnone
  | consumed => exact absurd hcase hstatus
  | expired => rw [hcase] at hfits; exact hfits.2

theorem assertDecisionInput_eq_ok {input : ActionApprovalDecisionInput}
    (h : assertDecisionInput input = .ok ()) :
    isOpaqueIdentifier input.reviewerId = true ∧ isCanonicalTimestamp input.decidedAt = true := by
  simp only [assertDecisionInput, check_eq_ok, shared_eq_ok, assertOpaqueIdentifier_eq_ok_iff,
    validateTimestamp_eq_ok_iff] at h
  obtain ⟨-, -, -, hreviewer, hdecided⟩ := h
  exact ⟨hreviewer, hdecided⟩

/-- A decision is no earlier than its request and earlier than the end of it. -/
theorem accepted_decide {input : ActionApprovalDecisionInput}
    (h : decideActionApprovalRecord ctx current input = .ok next) : next.Accepted ctx := by
  simp only [decideActionApprovalRecord, check_eq_ok, demand_eq_ok,
    assertActionApprovalRecord_eq_ok_iff, Bool.and_eq_true, decide_eq_true_eq,
    Bool.not_eq_true', decide_eq_false_iff_not, not_lt] at h
  obtain ⟨hcurrent, hinput, ⟨hpending, -⟩, -, hrequested, h⟩ := h
  obtain ⟨hreviewer, hdecided⟩ := assertDecisionInput_eq_ok hinput
  have hnone := hcurrent.unconsumed (by rw [hpending]; decide)
  split at h
  · rw [return_eq_ok] at h
    rw [h]
    exact hcurrent.expired hnone
  · rename_i hunexpired
    rw [return_eq_ok] at h
    rw [h]
    refine ⟨hcurrent.request, Nat.succ_pos _, hdecided, ?_, ?_⟩
    · rintro decision ⟨⟩
      exact ⟨hreviewer, hdecided, hrequested, not_le.1 hunexpired⟩
    · cases hchoice : input.decided.decision with
      | approved => exact ⟨input.decided, rfl, hchoice, rfl, hnone⟩
      | rejected => exact ⟨input.decided, rfl, hchoice, rfl, hnone⟩

theorem accepted_expire {input : ActionApprovalExpireInput}
    (h : expireActionApprovalRecord ctx current input = .ok next) : next.Accepted ctx := by
  simp only [expireActionApprovalRecord, check_eq_ok, demand_eq_ok,
    assertActionApprovalRecord_eq_ok_iff, Bool.and_eq_true, decide_eq_true_eq, return_eq_ok] at h
  obtain ⟨hcurrent, -, ⟨⟨hpending, -⟩, -⟩, rfl⟩ := h
  exact hcurrent.expired (hcurrent.unconsumed (by rw [hpending]; decide))

/-- Whether a consumption passes every check that is made of it. -/
def Consumable (ctx : ActionContext) (current : ActionApprovalRecord)
    (input : ActionApprovalConsumeInput) : Prop :=
  current.Accepted ctx ∧ assertConsumeInput input = .ok () ∧
    (current.status = .approved ∧ current.revision = input.expectedRevision) ∧
    current.request.coordinate = input.coordinate ∧
    current.request.operationId = input.operationId ∧
    current.request.intentFingerprint = input.intentFingerprint ∧
    current.request.expectedAuthority = input.currentAuthority

/-- Whether the clock reads earlier at the consumption than it did at the decision. -/
def StepsBack (current : ActionApprovalRecord) (input : ActionApprovalConsumeInput) : Prop :=
  ∃ decision, current.decision = some decision ∧ input.consumedAt < decision.decidedAt

theorem consume_eq_ok_iff {input : ActionApprovalConsumeInput} :
    consumeActionApprovalRecord ctx current input = .ok next ↔
      Consumable ctx current input ∧ next =
        if current.request.expiresAt ≤ input.consumedAt then
          current.advanceApproval .expired current.request.expiresAt
        else { current with consumedAt := some input.consumedAt }.advanceApproval .consumed
          input.consumedAt := by
  simp only [consumeActionApprovalRecord, Consumable, check_eq_ok, demand_eq_ok,
    assertActionApprovalRecord_eq_ok_iff, Bool.and_eq_true, decide_eq_true_eq, and_assoc]
  split <;> rw [return_eq_ok]

/-- A consumption leaves an accepted record unless the clock has stepped back. -/
theorem accepted_consume_iff {input : ActionApprovalConsumeInput}
    (h : consumeActionApprovalRecord ctx current input = .ok next) :
    next.Accepted ctx ↔ ¬ StepsBack current input := by
  obtain ⟨⟨hcurrent, hinput, ⟨happroved, -⟩, -⟩, rfl⟩ := consume_eq_ok_iff.1 h
  have hfits := hcurrent.status
  rw [ActionApprovalRecord.StatusFits, happroved] at hfits
  obtain ⟨decision, hdecision, hverdict, -, hnone⟩ := hfits
  have hconsumed : isCanonicalTimestamp input.consumedAt = true := by
    simp only [assertConsumeInput, check_eq_ok, shared_eq_ok, validateTimestamp_eq_ok_iff] at hinput
    obtain ⟨-, -, -, -, -, -, hconsumed⟩ := hinput
    exact hconsumed
  have hback : StepsBack current input ↔ input.consumedAt < decision.decidedAt := by
    constructor
    · rintro ⟨other, hother, hlt⟩
      rw [hdecision] at hother
      cases hother
      exact hlt
    · intro hlt
      exact ⟨decision, hdecision, hlt⟩
  split
  · rename_i hexpired
    -- the end of the request is behind its decision
    have hdecided := (hcurrent.decision decision hdecision).unexpired
    refine ⟨fun _ => ?_, fun _ => hcurrent.expired hnone⟩
    rw [hback, not_lt]
    exact (hdecided.trans_le hexpired).le
  · rename_i hunexpired
    rw [hback, not_lt]
    constructor
    · intro hnext
      obtain ⟨other, hother, -, -, hle, -⟩ := hnext.status
      have hsame : some decision = some other := hdecision.symm.trans hother
      cases hsame
      exact hle
    · intro hle
      exact ⟨hcurrent.request, Nat.succ_pos _, hconsumed, hcurrent.decision,
        decision, hdecision, hverdict, rfl, hle, not_le.1 hunexpired⟩

end Transitions

/-! ## One call -/

namespace InMemoryActionApprovalStore

variable {store : InMemoryActionApprovalStore}

/-- No operation of the store refuses one of its records. -/
def Readable (ctx : ActionContext) (store : InMemoryActionApprovalStore) : Prop :=
  ∀ key record, store.records.get? key = some record →
    assertActionApprovalRecord ctx record = .ok ()

/-- The clock of a consumption reads no earlier than that of the decision it consumes. -/
def ClockHolds (ctx : ActionContext) (store : InMemoryActionApprovalStore) : ApprovalCall → Prop
  | .consume input => ∀ current,
      store.records.get? ⟨input.sessionId, input.actorId, input.approvalId⟩ = some current →
        Consumable ctx current input → ¬ StepsBack current input
  | _ => True

theorem readable_empty : empty.Readable ctx := by
  intro key record h
  cases h

theorem readable_set_iff (h : store.Readable ctx) (key : ApprovalKey)
    (record : ActionApprovalRecord) :
    Readable ctx ⟨store.records.set key record⟩ ↔ record.Accepted ctx := by
  constructor
  · intro hset
    rw [← assertActionApprovalRecord_eq_ok_iff]
    exact hset key record (OrderedMap.get?_set_self ..)
  · intro hrecord other found hfound
    rw [OrderedMap.get?_set] at hfound
    split at hfound
    · cases hfound
      exact assertActionApprovalRecord_eq_ok_iff.2 hrecord
    · exact h other found hfound

/-- A call leaves what it ends in either way. -/
theorem respond_of_ends {α : Type} {m : EStateM ApprovalError InMemoryActionApprovalStore α}
    {P : InMemoryActionApprovalStore → Prop} (h : Ends m store (fun _ => P) fun _ => P) :
    P (respond m store).2 := by
  unfold Ends at h
  unfold respond
  cases hm : m store <;> rw [hm] at h <;> exact h

/-- The store with one of its records moved by a transition, if the transition answers. -/
def moved (store : InMemoryActionApprovalStore) (key : ApprovalKey)
    (transition : ActionApprovalRecord → Except ApprovalError ActionApprovalRecord) :
    InMemoryActionApprovalStore :=
  match store.records.get? key with
  | none => store
  | some current =>
    match transition current with
    | .error _ => store
    | .ok next => ⟨store.records.set key next⟩

theorem respond_advance (key : ApprovalKey)
    (transition : ActionApprovalRecord → Except ApprovalError ActionApprovalRecord)
    (store : InMemoryActionApprovalStore) :
    (respond (ApprovalAnswer.record <$> advance key transition) store).2 =
      store.moved key transition := by
  have hends : Ends (ApprovalAnswer.record <$> advance key transition) store
      (fun _ after => after = store.moved key transition)
      fun _ after => after = store.moved key transition := by
    simp only [advance, ends_map, ends_bind, ends_get, moved]
    cases store.records.get? key with
    | none => simp
    | some current => cases htransition : transition current <;> simp [htransition]
  exact respond_of_ends hends

/-- A transition that leaves accepted records leaves the store readable. -/
theorem Readable.moved (h : store.Readable ctx) (key : ApprovalKey)
    {transition : ActionApprovalRecord → Except ApprovalError ActionApprovalRecord}
    (htransition : ∀ current next, transition current = .ok next → next.Accepted ctx) :
    (store.moved key transition).Readable ctx := by
  unfold InMemoryActionApprovalStore.moved
  split
  · exact h
  · split
    · exact h
    · rename_i next hnext
      exact (readable_set_iff h key next).2 (htransition _ next hnext)

/-- A consumption leaves the store readable unless the clock has stepped back. -/
theorem readable_consume_iff (h : store.Readable ctx) (input : ActionApprovalConsumeInput) :
    (store.moved ⟨input.sessionId, input.actorId, input.approvalId⟩ fun current =>
        consumeActionApprovalRecord ctx current input).Readable ctx ↔
      store.ClockHolds ctx (.consume input) := by
  unfold InMemoryActionApprovalStore.moved ClockHolds
  cases hget : store.records.get? ⟨input.sessionId, input.actorId, input.approvalId⟩ with
  | none => simp [h, hget]
  | some current =>
    simp only [hget, Option.some.injEq]
    cases hnext : consumeActionApprovalRecord ctx current input with
    | error e =>
      refine ⟨fun _ found hfound hconsumable => ?_, fun _ => h⟩
      subst hfound
      rw [consume_eq_ok_iff.2 ⟨hconsumable, rfl⟩] at hnext
      cases hnext
    | ok next =>
      rw [readable_set_iff h, accepted_consume_iff hnext]
      constructor
      · intro hclock found hfound _
        subst hfound
        exact hclock
      · intro hclock
        exact hclock current rfl (consume_eq_ok_iff.1 hnext).1

theorem accepted_pending {request : ActionApprovalRequest}
    (h : assertActionApprovalRequest ctx request = .ok ()) :
    ActionApprovalRecord.Accepted ctx
      ⟨request, .pending, 1, request.requestedAt, none, none⟩ := by
  refine ⟨h, Nat.one_pos, ?_, by rintro decision ⟨⟩, rfl, rfl⟩
  simp only [assertActionApprovalRequest, check_eq_ok, shared_eq_ok,
    validateTimestamp_eq_ok_iff] at h
  obtain ⟨-, -, -, -, -, -, -, -, hrequested, -⟩ := h
  exact hrequested

theorem Readable.delete (h : store.Readable ctx)
    (keys : List (ApprovalKey × ActionApprovalRecord)) :
    Readable ctx ⟨keys.foldl (fun records entry => records.delete entry.1) store.records⟩ := by
  induction keys generalizing store with
  | nil => exact h
  | cons entry rest ih =>
    have hdeleted : Readable ctx ⟨store.records.delete entry.1⟩ := by
      intro key record hrecord
      rw [OrderedMap.get?_delete] at hrecord
      split at hrecord
      · cases hrecord
      · exact h key record hrecord
    exact ih hdeleted

/-- One call keeps the store readable exactly when the clock holds. -/
theorem readable_call_iff (h : store.Readable ctx) (operation : ApprovalCall) :
    (respond (call ctx operation) store).2.Readable ctx ↔ store.ClockHolds ctx operation := by
  cases operation with
  | consume input => rw [call, respond_advance, readable_consume_iff h]
  | decide input =>
    rw [call, respond_advance]
    exact ⟨fun _ => trivial, fun _ => h.moved _ fun _ _ => accepted_decide⟩
  | expire input =>
    rw [call, respond_advance]
    exact ⟨fun _ => trivial, fun _ => h.moved _ fun _ _ => accepted_expire⟩
  | ensure request =>
    refine ⟨fun _ => trivial, fun _ => respond_of_ends ?_⟩
    simp only [call, ensure, ends_map, ends_bind, ends_attempt, ends_get]
    refine ⟨fun _ hrequest => ?_, fun _ _ => h⟩
    split
    · split <;> exact h
    · exact (readable_set_iff h _ _).2 (accepted_pending hrequest)
  | get key =>
    refine ⟨fun _ => trivial, fun _ => respond_of_ends ?_⟩
    simp [call, find, ends_attempt, h]
  | listPending request now =>
    refine ⟨fun _ => trivial, fun _ => respond_of_ends ?_⟩
    simp [call, listPending, ends_attempt, h]
  | purgeTerminal request =>
    refine ⟨fun _ => trivial, fun _ => respond_of_ends ?_⟩
    simp only [call, purgeTerminal, ends_map, ends_bind, ends_attempt, ends_get, ends_set]
    exact ⟨fun _ _ => h.delete _, fun _ _ => h⟩

/-! ## Whole runs -/

theorem run_concat (ctx : ActionContext) (store : InMemoryActionApprovalStore)
    (calls : List ApprovalCall) (operation : ApprovalCall) :
    store.run ctx (calls ++ [operation]) =
      (respond (call ctx operation) (store.run ctx calls)).2 := by
  rw [run, List.foldl_append]
  rfl

/-- Every store of a run is readable exactly when the clock holds at every call. -/
theorem readable_run_iff (ctx : ActionContext) (calls : List ApprovalCall) :
    (∀ before, before <+: calls → (empty.run ctx before).Readable ctx) ↔
      ∀ before operation, before ++ [operation] <+: calls →
        (empty.run ctx before).ClockHolds ctx operation := by
  constructor
  · intro h before operation hprefix
    have hbefore := h before ((List.prefix_append _ _).trans hprefix)
    rw [← readable_call_iff hbefore, ← run_concat]
    exact h _ hprefix
  · intro h before
    induction before using List.reverseRecOn with
    | nil => intro _; exact readable_empty
    | append_singleton before operation ih =>
      intro hprefix
      have hbefore := ih ((List.prefix_append _ _).trans hprefix)
      rw [run_concat, readable_call_iff hbefore]
      exact h before operation hprefix

end InMemoryActionApprovalStore

/-! ## Every transition and every run -/

/-- The times of an accepted record are in order. -/
theorem ActionApprovalRecord.Accepted.chronology {record : ActionApprovalRecord}
    (h : record.Accepted ctx) {decision : ActionApprovalDecision} {consumedAt : String}
    (hdecision : record.decision = some decision)
    (hconsumed : record.consumedAt = some consumedAt) :
    record.request.requestedAt ≤ decision.decidedAt ∧ decision.decidedAt ≤ consumedAt ∧
      consumedAt < record.request.expiresAt := by
  by_cases hstatus : record.status = .consumed
  · have hfits := h.status
    rw [ActionApprovalRecord.StatusFits, hstatus] at hfits
    obtain ⟨other, hother, -, hat, hle, hlt⟩ := hfits
    obtain rfl := Option.some.inj (hdecision.symm.trans hother)
    obtain rfl := Option.some.inj (hconsumed.symm.trans hat)
    exact ⟨(h.decision decision hdecision).requested, hle, hlt⟩
  · rw [h.unconsumed hstatus] at hconsumed
    cases hconsumed

/-- Decisions and expiries always leave a valid record; a consumption does exactly when the
clock has not stepped back behind the decision, and so does a run of the store. -/
theorem approvals_stay_valid_iff (ctx : ActionContext) :
    (∀ record decision consumedAt, assertActionApprovalRecord ctx record = .ok () →
      record.decision = some decision → record.consumedAt = some consumedAt →
        record.request.requestedAt ≤ decision.decidedAt ∧ decision.decidedAt ≤ consumedAt ∧
          consumedAt < record.request.expiresAt) ∧
    (∀ current input next, assertActionApprovalRecord ctx current = .ok () →
      decideActionApprovalRecord ctx current input = .ok next →
        assertActionApprovalRecord ctx next = .ok ()) ∧
    (∀ current input next, assertActionApprovalRecord ctx current = .ok () →
      expireActionApprovalRecord ctx current input = .ok next →
        assertActionApprovalRecord ctx next = .ok ()) ∧
    (∀ current input, assertActionApprovalRecord ctx current = .ok () →
      ((∀ next, consumeActionApprovalRecord ctx current input = .ok next →
          assertActionApprovalRecord ctx next = .ok ()) ↔
        (Consumable ctx current input → ¬ StepsBack current input))) ∧
    ∀ calls,
      (∀ before, before <+: calls →
        (InMemoryActionApprovalStore.empty.run ctx before).Readable ctx) ↔
      ∀ before operation, before ++ [operation] <+: calls →
        (InMemoryActionApprovalStore.empty.run ctx before).ClockHolds ctx operation := by
  simp only [assertActionApprovalRecord_eq_ok_iff]
  refine ⟨fun _ _ _ h => h.chronology, fun _ _ _ _ => accepted_decide,
    fun _ _ _ _ => accepted_expire, fun current input hcurrent => ?_,
    InMemoryActionApprovalStore.readable_run_iff ctx⟩
  constructor
  · intro h hconsumable
    have hnext := consume_eq_ok_iff.2 ⟨hconsumable, rfl⟩
    exact (accepted_consume_iff hnext).1 (h _ hnext)
  · intro h next hnext
    exact (accepted_consume_iff hnext).2 (h (consume_eq_ok_iff.1 hnext).1)

/-! ## What a record keeps -/

/-- An open record is moved: the request and a decision stay, and the revision grows. -/
structure ApprovalAdvance (current next : ActionApprovalRecord) : Prop where
  undecided : current.status = .pending ∨ current.status = .approved
  request : next.request = current.request
  revision : current.revision < next.revision
  decision : current.decision.isSome → next.decision = current.decision

variable {current next : ActionApprovalRecord}

theorem ApprovalAdvance.trans {last : ActionApprovalRecord} (h : ApprovalAdvance current next)
    (h' : ApprovalAdvance next last) : ApprovalAdvance current last := by
  refine ⟨h.undecided, h'.request.trans h.request, h.revision.trans h'.revision, fun hsome => ?_⟩
  have hkept := h.decision hsome
  exact (h'.decision (hkept ▸ hsome)).trans hkept

theorem advance_decide {input : ActionApprovalDecisionInput}
    (h : decideActionApprovalRecord ctx current input = .ok next) :
    ApprovalAdvance current next := by
  simp only [decideActionApprovalRecord, check_eq_ok, demand_eq_ok,
    assertActionApprovalRecord_eq_ok_iff, Bool.and_eq_true, decide_eq_true_eq] at h
  obtain ⟨hcurrent, -, ⟨hpending, -⟩, -, -, h⟩ := h
  have hfits := hcurrent.status
  rw [ActionApprovalRecord.StatusFits, hpending] at hfits
  split at h <;> rw [return_eq_ok] at h <;> subst h
  · exact ⟨Or.inl hpending, rfl, Nat.lt_succ_self _, fun _ => rfl⟩
  · exact ⟨Or.inl hpending, rfl, Nat.lt_succ_self _, fun hsome => by simp [hfits.1] at hsome⟩

theorem advance_expire {input : ActionApprovalExpireInput}
    (h : expireActionApprovalRecord ctx current input = .ok next) :
    ApprovalAdvance current next := by
  simp only [expireActionApprovalRecord, check_eq_ok, demand_eq_ok, Bool.and_eq_true,
    decide_eq_true_eq, return_eq_ok] at h
  obtain ⟨-, -, ⟨⟨hpending, -⟩, -⟩, rfl⟩ := h
  exact ⟨Or.inl hpending, rfl, Nat.lt_succ_self _, fun _ => rfl⟩

theorem advance_consume {input : ActionApprovalConsumeInput}
    (h : consumeActionApprovalRecord ctx current input = .ok next) :
    ApprovalAdvance current next := by
  obtain ⟨⟨-, -, ⟨happroved, -⟩, -⟩, rfl⟩ := consume_eq_ok_iff.1 h
  split <;> exact ⟨Or.inr happroved, rfl, Nat.lt_succ_self _, fun _ => rfl⟩

namespace InMemoryActionApprovalStore

variable {store : InMemoryActionApprovalStore} {key : ApprovalKey} {record : ActionApprovalRecord}

/-- A record is there, as it was or moved on. -/
def Carries (key : ApprovalKey) (record : ActionApprovalRecord)
    (store : InMemoryActionApprovalStore) : Prop :=
  ∃ later, store.records.get? key = some later ∧ (later = record ∨ ApprovalAdvance record later)

theorem Carries.set {other : ApprovalKey} {written : ActionApprovalRecord}
    (h : store.Carries key record)
    (hwritten : ∀ found, store.records.get? other = some found → ApprovalAdvance found written) :
    Carries key record ⟨store.records.set other written⟩ := by
  obtain ⟨later, hlater, hcarried⟩ := h
  by_cases hkey : other = key
  · subst hkey
    have hadvance := hwritten later hlater
    refine ⟨written, OrderedMap.get?_set_self .., Or.inr ?_⟩
    exact hcarried.elim (fun hsame => hsame ▸ hadvance) fun hbefore => hbefore.trans hadvance
  · exact ⟨later, by rwa [OrderedMap.get?_set, if_neg (by simpa [eq_comm] using hkey)], hcarried⟩

theorem Carries.moved (h : store.Carries key record) (other : ApprovalKey)
    {transition : ActionApprovalRecord → Except ApprovalError ActionApprovalRecord}
    (htransition : ∀ found written, transition found = .ok written →
      ApprovalAdvance found written) : (store.moved other transition).Carries key record := by
  unfold InMemoryActionApprovalStore.moved
  split
  · exact h
  · rename_i found hfound
    split
    · exact h
    · rename_i written hwritten
      refine h.set fun other hother => ?_
      rw [hfound] at hother
      cases hother
      exact htransition found written hwritten

theorem Carries.answer {operation : ApprovalCall} (h : store.Carries key record)
    (hkept : ∀ request, operation ≠ .purgeTerminal request) :
    (respond (call ctx operation) store).2.Carries key record := by
  cases operation with
  | decide input => exact respond_advance .. ▸ h.moved _ fun _ _ => advance_decide
  | consume input => exact respond_advance .. ▸ h.moved _ fun _ _ => advance_consume
  | expire input => exact respond_advance .. ▸ h.moved _ fun _ _ => advance_expire
  | ensure request =>
    refine respond_of_ends ?_
    simp only [call, ensure, ends_map, ends_bind, ends_attempt, ends_get]
    refine ⟨fun _ _ => ?_, fun _ _ => h⟩
    split
    · split <;> exact h
    · rename_i hnone
      exact h.set fun found hfound => by rw [hnone] at hfound; cases hfound
  | get | listPending =>
    refine respond_of_ends ?_
    simp [call, find, listPending, ends_attempt, h]
  | purgeTerminal request => exact absurd rfl (hkept request)

/-- Over every run without a purge, a record moves on from revision to revision: its request never
changes, a decision is made once, and one that is rejected, consumed or expired stays as it is. -/
theorem approvals_go_on (ctx : ActionContext) (before later : List ApprovalCall)
    (key : ApprovalKey) :
    (∃ request, .purgeTerminal request ∈ later) ∨
      ∀ record, (empty.run ctx before).records.get? key = some record →
        (empty.run ctx (before ++ later)).Carries key record := by
  refine or_iff_not_imp_left.mpr fun hnone record hrecord => ?_
  induction later using List.reverseRecOn with
  | nil => exact ⟨record, by rwa [List.append_nil], Or.inl rfl⟩
  | append_singleton later operation ih =>
    have hbefore := ih fun ⟨request, hmem⟩ => hnone ⟨request, List.mem_append_left _ hmem⟩
    rw [← List.append_assoc, run_concat]
    exact hbefore.answer fun request hsame => hnone ⟨request, by simp [hsame]⟩

end InMemoryActionApprovalStore

/-! ## A clock that steps back -/

def zeroDigest : String :=
  "0000000000000000000000000000000000000000000000000000000000000000"

/-- A context in which every digest is made of zeros. -/
def zeroDigests : ActionContext :=
  ⟨fun _ => zeroDigest, none⟩

/-- A request of one hour. -/
def hourRequest : ActionApprovalRequest where
  sessionId := "s"
  actorId := "a"
  coordinate := ⟨"s", "a", "r", 1⟩
  approvalId := "apr_" ++ zeroDigest
  requestFingerprint := zeroDigest
  policyId := "p"
  operationId := "o"
  intentFingerprint := zeroDigest
  actionName := "move"
  expectedAuthority := ⟨"t", 1, 1⟩
  taskId := none
  presentation := none
  requestedAt := "2024-01-01T00:00:00.000Z"
  expiresAt := "2024-01-01T01:00:00.000Z"

/-- It is approved after ten minutes and consumed when the clock reads five. -/
def steppingCalls : List ApprovalCall :=
  [.ensure hourRequest,
    .decide ⟨"s", "a", "apr_" ++ zeroDigest, 1, zeroDigest, .approve, "reviewer", none,
      "2024-01-01T00:10:00.000Z"⟩,
    .consume ⟨"s", "a", ⟨"s", "a", "r", 1⟩, "apr_" ++ zeroDigest, 2, "o", zeroDigest, ⟨"t", 1, 1⟩,
      "2024-01-01T00:05:00.000Z"⟩]

/-- The consumption leaves a record that every later operation refuses. -/
theorem consumption_before_decision :
    ∃ record,
      (InMemoryActionApprovalStore.empty.run zeroDigests steppingCalls).records.get?
        ⟨"s", "a", "apr_" ++ zeroDigest⟩ = some record ∧ record.status = .consumed ∧
      (∀ input, decideActionApprovalRecord zeroDigests record input =
        .error (.type "The approval consumption chronology is invalid.")) ∧
      (∀ input, consumeActionApprovalRecord zeroDigests record input =
        .error (.type "The approval consumption chronology is invalid.")) ∧
      ∀ input, expireActionApprovalRecord zeroDigests record input =
        .error (.type "The approval consumption chronology is invalid.") := by
  have hrun : ((InMemoryActionApprovalStore.empty.run zeroDigests steppingCalls).records.get?
      ⟨"s", "a", "apr_" ++ zeroDigest⟩).map (fun record =>
        (record.status, assertActionApprovalRecord zeroDigests record)) =
      some (.consumed, .error (.type "The approval consumption chronology is invalid.")) := by
    decide +kernel
  obtain ⟨record, hrecord, hpair⟩ := Option.map_eq_some_iff.1 hrun
  obtain ⟨hstatus, hrefused⟩ := Prod.mk.inj hpair
  refine ⟨record, hrecord, hstatus, fun input => ?_, fun input => ?_, fun input => ?_⟩
  · rw [decideActionApprovalRecord, hrefused, error_bind]
  · rw [consumeActionApprovalRecord, hrefused, error_bind]
  · rw [expireActionApprovalRecord, hrefused, error_bind]

end OpenGameAgent
