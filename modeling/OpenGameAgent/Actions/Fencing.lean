import OpenGameAgent.Actions.JournalRuns

/-!
# Fenced delivery

What a run did with one action is a list of events: its dispatches, and the
reconciliations that answered not-applied.  `Trail` ties that list to the record as it
stands, every change of the ledger keeps it (`Trail.step`), and so does every run
(`Ledger.Run.trail`).

* `ActionRecord.MayRedispatch` — what must lie between two dispatches of an action.
* `Stale` — a receipt or a reconciliation that does not answer the current claim.
-/

namespace OpenGameAgent

/-- What a run did with an action. -/
inductive DeliveryEvent where
  | dispatched (action : ActionRecord)
  | unapplied (input : ActionReconcileInput)

/-- The events of one call about the action of a key. -/
def deliveryEvents (key : ActionKey) (outcome : ActionJournal.Outcome) : List DeliveryEvent :=
  match outcome with
  | (.nextDelivery _, .ok (.selection ⟨some ⟨.dispatch, action⟩, _⟩)) =>
    if action.key = key then [.dispatched action] else []
  | (.reconcile input, .ok _) =>
    if input.key = key ∧ input.resolution = .notApplied then [.unapplied input] else []
  | _ => []

/-- After this dispatch of the action and the events that followed it, its policy allows
another one: a recoverable action was reconciled as not applied. -/
def ActionRecord.MayRedispatch (action : ActionRecord) (events : List DeliveryEvent) : Prop :=
  action.replayPolicy ≠ .never ∧
    (action.replayPolicy = .recoverable → ∃ input claim, .unapplied input ∈ events ∧
      action.claim = some claim ∧ input.claimToken = claim.claimToken ∧
      input.attempt = claim.attempt)

theorem ActionRecord.MayRedispatch.mono {action : ActionRecord} {events more : List DeliveryEvent}
    (h : action.MayRedispatch events) (hsub : ∀ event ∈ events, event ∈ more) :
    action.MayRedispatch more := by
  refine ⟨h.1, fun hpolicy => ?_⟩
  obtain ⟨input, claim, hmem, hrest⟩ := h.2 hpolicy
  exact ⟨input, claim, hsub _ hmem, hrest⟩

/-- The events after the last dispatch of an action. -/
def LastDispatch (events : List DeliveryEvent) (last : ActionRecord)
    (after : List DeliveryEvent) : Prop :=
  (∃ before, events = before ++ .dispatched last :: after) ∧ ∀ other, .dispatched other ∉ after

/-- Two dispatches in a list with one more event: both are old, or the new event is the
second one. -/
theorem dispatches_concat {events before between after : List DeliveryEvent} {event : DeliveryEvent}
    {a b : ActionRecord}
    (h : events ++ [event] = before ++ .dispatched a :: (between ++ .dispatched b :: after)) :
    (∃ front, events = before ++ .dispatched a :: (between ++ .dispatched b :: front)) ∨
      (event = .dispatched b ∧ events = before ++ .dispatched a :: between) := by
  rcases List.eq_nil_or_concat after with rfl | ⟨front, last, rfl⟩
  · have happend : events ++ [event] =
        (before ++ .dispatched a :: between) ++ [.dispatched b] := by simpa using h
    obtain ⟨hevents, hevent⟩ := List.append_inj' happend rfl
    exact Or.inr ⟨(List.cons.inj hevent).1, hevents⟩
  · have happend : events ++ [event] =
        (before ++ .dispatched a :: (between ++ .dispatched b :: front)) ++ [last] := by
      simpa using h
    exact Or.inl ⟨front, List.append_inj_left' happend rfl⟩

/-- What the events of an action say about its record. -/
structure Trail (record : Option ActionRecord) (events : List DeliveryEvent) : Prop where
  /-- Every dispatch is of one claim, with the attempt's number. -/
  claimed : ∀ action, .dispatched action ∈ events →
    ∃ claim, action.claim = some claim ∧ claim.attempt = action.attempt
  /-- Attempts increase, and a dispatch before another one left the action free. -/
  ordered : ∀ before between after a b,
    events = before ++ .dispatched a :: (between ++ .dispatched b :: after) →
    a.attempt < b.attempt ∧ a.MayRedispatch between
  /-- A dispatched action is there, with the intent it was dispatched with. -/
  present : ∀ action, .dispatched action ∈ events → ∃ r, record = some r ∧
    action.toPreparedActionIntent = r.toPreparedActionIntent ∧ action.attempt ≤ r.attempt ∧
    r.attempt ≠ 0
  /-- The claim of a record is the one of its last dispatch; a pending record may be
  dispatched again. -/
  latest : ∀ r, record = some r → r.attempt ≠ 0 → ∃ last after, LastDispatch events last after ∧
    last.attempt = r.attempt ∧ (∀ claim, r.claim = some claim → last.claim = some claim) ∧
    (r.status = .pending → last.MayRedispatch after)
  /-- Before its first dispatch a record has no claim. -/
  unclaimed : ∀ r, record = some r → r.attempt = 0 → r.claim = none

namespace Trail

variable {record : Option ActionRecord} {r moved : ActionRecord} {events : List DeliveryEvent}

theorem nil : Trail none [] where
  claimed := fun _ hmem => absurd hmem List.not_mem_nil
  ordered := by
    intro before between after a b h
    cases before <;> cases h
  present := fun _ hmem => absurd hmem List.not_mem_nil
  latest := by rintro r ⟨⟩
  unclaimed := by rintro r ⟨⟩

/-- An admitted action was never dispatched. -/
theorem admission (h : Trail none events) (hattempt : r.attempt = 0) (hclaim : r.claim = none) :
    Trail (some r) events where
  claimed := h.claimed
  ordered := h.ordered
  present := by
    intro action hmem
    obtain ⟨_, hnone, -⟩ := h.present action hmem
    cases hnone
  latest := by
    rintro _ ⟨⟩ hpositive
    exact absurd hattempt hpositive
  unclaimed := by
    rintro _ ⟨⟩ -
    exact hclaim

/-- A reconciliation is noted. -/
theorem unapplied (h : Trail record events) (input : ActionReconcileInput) :
    Trail record (events ++ [.unapplied input]) where
  claimed := by
    intro action hmem
    rw [List.mem_append, List.mem_singleton] at hmem
    rcases hmem with hmem | hmem
    · exact h.claimed action hmem
    · cases hmem
  ordered := by
    intro before between after a b heq
    rcases dispatches_concat heq with ⟨front, hevents⟩ | ⟨hevent, -⟩
    · exact h.ordered before between front a b hevents
    · cases hevent
  present := by
    intro action hmem
    rw [List.mem_append, List.mem_singleton] at hmem
    rcases hmem with hmem | hmem
    · exact h.present action hmem
    · cases hmem
  latest := by
    intro r hr hpositive
    obtain ⟨last, after, ⟨⟨before, rfl⟩, hafter⟩, hattempt, hclaim, hpending⟩ :=
      h.latest r hr hpositive
    refine ⟨last, after ++ [.unapplied input], ⟨⟨before, by simp⟩, ?_⟩, hattempt, hclaim,
      fun hstatus => (hpending hstatus).mono fun _ hmem => List.mem_append_left _ hmem⟩
    intro other hmem
    rw [List.mem_append, List.mem_singleton] at hmem
    rcases hmem with hmem | hmem
    · exact hafter other hmem
    · cases hmem
  unclaimed := h.unclaimed

/-- A change of the record that is no dispatch. -/
theorem settle (h : Trail (some r) events)
    (hintent : moved.toPreparedActionIntent = r.toPreparedActionIntent)
    (hattempt : moved.attempt = r.attempt)
    (hclaim : ∀ claim, moved.claim = some claim → r.claim = some claim)
    (hpending : moved.status = .pending → ∀ last after, LastDispatch events last after →
      last.toPreparedActionIntent = r.toPreparedActionIntent →
      (∀ claim, r.claim = some claim → last.claim = some claim) →
      (r.status = .pending → last.MayRedispatch after) → last.MayRedispatch after) :
    Trail (some moved) events where
  claimed := h.claimed
  ordered := h.ordered
  present := by
    intro action hmem
    obtain ⟨other, hother, hsame, hle, hpositive⟩ := h.present action hmem
    rw [Option.some.injEq] at hother
    subst hother
    exact ⟨moved, rfl, hsame.trans hintent.symm, by rw [hattempt]; exact hle,
      by rw [hattempt]; exact hpositive⟩
  latest := by
    rintro _ ⟨⟩ hpositive
    rw [hattempt] at hpositive
    obtain ⟨last, after, hlast, hsame, hheld, hfree⟩ := h.latest r rfl hpositive
    refine ⟨last, after, hlast, hsame.trans hattempt.symm,
      fun claim hc => hheld claim (hclaim claim hc), fun hstatus => ?_⟩
    have hmem : .dispatched last ∈ events := by
      obtain ⟨⟨before, rfl⟩, -⟩ := hlast
      simp
    obtain ⟨other, hother, hintent', -⟩ := h.present last hmem
    rw [Option.some.injEq] at hother
    subst hother
    exact hpending hstatus last after hlast hintent' hheld hfree
  unclaimed := by
    rintro _ ⟨⟩ hzero
    cases hc : moved.claim with
    | none => rfl
    | some claim =>
      have hnone := h.unclaimed r rfl (hattempt ▸ hzero)
      rw [hclaim claim hc] at hnone
      cases hnone

/-- A dispatch of the action. -/
theorem dispatch (h : Trail (some r) events)
    (hintent : moved.toPreparedActionIntent = r.toPreparedActionIntent)
    (hattempt : moved.attempt = r.attempt + 1)
    (hclaim : ∃ claim, moved.claim = some claim ∧ claim.attempt = moved.attempt)
    (hstatus : moved.status ≠ .pending)
    (hfree : r.status = .pending ∨ r.replayPolicy = .safe) :
    Trail (some moved) (events ++ [.dispatched moved]) where
  claimed := by
    intro action hmem
    rw [List.mem_append, List.mem_singleton] at hmem
    rcases hmem with hmem | hmem
    · exact h.claimed action hmem
    · cases hmem
      exact hclaim
  ordered := by
    intro before between after a b heq
    rcases dispatches_concat heq with ⟨front, hevents⟩ | ⟨hevent, hevents⟩
    · exact h.ordered before between front a b hevents
    · -- The new dispatch comes after all others: look at the last one of them.
      cases hevent
      have hmem : .dispatched a ∈ events := by simp [hevents]
      obtain ⟨_, hsome, hsame, hle, hpositive⟩ := h.present a hmem
      cases hsome
      refine ⟨by omega, ?_⟩
      obtain ⟨last, tail, ⟨⟨front, hlast⟩, hnone⟩, -, -, hpending⟩ := h.latest r rfl hpositive
      have hlastmem : .dispatched last ∈ events := by simp [hlast]
      obtain ⟨_, hsome, hlastintent, -⟩ := h.present last hlastmem
      cases hsome
      have hmay : last.MayRedispatch tail := by
        rcases hfree with hstatus | hsafe
        · exact hpending hstatus
        · have hpolicy : last.replayPolicy = .safe := by rw [hlastintent]; exact hsafe
          refine ⟨by rw [hpolicy]; decide, fun hc => ?_⟩
          rw [hpolicy] at hc
          cases hc
      rw [hlast] at hevents
      rcases List.append_eq_append_iff.1 hevents with ⟨mid, hbefore, htail⟩ | ⟨mid, hfront, htail⟩
      · cases mid with
        | nil =>
          rw [List.nil_append, List.cons.injEq, DeliveryEvent.dispatched.injEq] at htail
          obtain ⟨rfl, rfl⟩ := htail
          exact hmay
        | cons head mid =>
          rw [List.cons_append, List.cons.injEq] at htail
          exact absurd (htail.2 ▸ List.mem_append_right mid (List.mem_cons_self ..)) (hnone a)
      · cases mid with
        | nil =>
          rw [List.nil_append, List.cons.injEq, DeliveryEvent.dispatched.injEq] at htail
          obtain ⟨rfl, rfl⟩ := htail
          exact hmay
        | cons head mid =>
          rw [List.cons_append, List.cons.injEq] at htail
          obtain ⟨rfl, rfl⟩ := htail
          have hold := h.ordered before mid tail a last (by rw [hlast, hfront]; simp)
          exact hold.2.mono fun event hmem => List.mem_append_left _ hmem
  present := by
    intro action hmem
    rw [List.mem_append, List.mem_singleton] at hmem
    rcases hmem with hmem | hmem
    · obtain ⟨_, hsome, hsame, hle, -⟩ := h.present action hmem
      cases hsome
      exact ⟨moved, rfl, hsame.trans hintent.symm, by omega, by omega⟩
    · cases hmem
      exact ⟨moved, rfl, rfl, le_rfl, by omega⟩
  latest := by
    rintro _ ⟨⟩ -
    refine ⟨moved, [], ⟨⟨events, rfl⟩, by simp⟩, rfl, fun _ hc => hc, fun hc => absurd hc hstatus⟩
  unclaimed := by
    rintro _ ⟨⟩ hzero
    omega

/-- A move that dispatches. -/
theorem dispatched (h : Trail (some r) events) {request : ActionClaimRequest}
    (hfree : r.status = .pending ∨ r.replayPolicy = .safe) :
    Trail (some (r.claimedBy request)) (events ++ [.dispatched (r.claimedBy request)]) :=
  h.dispatch rfl rfl ⟨_, rfl, rfl⟩ (by simp [ActionRecord.claimedBy]) hfree

/-- A move that leaves the record where it cannot be dispatched, or where it was. -/
theorem undispatched (h : Trail (some r) events)
    (hintent : moved.toPreparedActionIntent = r.toPreparedActionIntent)
    (hattempt : moved.attempt = r.attempt)
    (hclaim : ∀ claim, moved.claim = some claim → r.claim = some claim)
    (hstatus : moved.status = .pending → r.status = .pending) : Trail (some moved) events :=
  h.settle hintent hattempt hclaim fun hpending _ _ _ _ _ hmay => hmay (hstatus hpending)

/-- A reconciliation that puts the record back is one that answered not-applied. -/
theorem reconciled (h : Trail (some r) events) {input : ActionReconcileInput}
    (hmoves : Moves r (.reconcile input) moved) :
    Trail (some moved) (events ++
      if input.resolution = .notApplied then [.unapplied input] else []) := by
  cases hmoves with
  | reconcile valid unsettled holds open_ =>
    have hclaim : ∀ claim, (r.receiving (input.status r.replayPolicy) input.reconciledAt
        input.receipt).claim = some claim → r.claim = some claim := by
      intro claim hc
      simp only [ActionRecord.receiving] at hc
      split at hc
      · exact hc
      · cases hc
    split
    · rename_i hresolution
      refine (h.unapplied input).settle rfl rfl hclaim ?_
      intro hpending last after hlast hintent hheld _
      have hpolicy : last.replayPolicy = r.replayPolicy := by rw [hintent]
      refine ⟨?_, fun _ => ?_⟩
      · intro hnever
        rw [hpolicy] at hnever
        simp [ActionRecord.receiving, ActionReconcileInput.status, hresolution, hnever] at hpending
      · obtain ⟨claim, hc, htoken, hattempt⟩ := holds
        refine ⟨input, claim, ?_, hheld claim hc, htoken.symm, hattempt.symm⟩
        -- The event stands behind the last dispatch.
        obtain ⟨⟨before, hevents⟩, -⟩ := hlast
        rcases List.eq_nil_or_concat after with rfl | ⟨front, tail, rfl⟩
        · have hsame := (List.append_inj' hevents rfl).2
          cases hsame
        · have happend : events ++ [.unapplied input] =
              (before ++ .dispatched last :: front) ++ [tail] := by simpa using hevents
          have hsame := (List.append_inj' happend rfl).2
          rw [List.cons.injEq] at hsame
          rw [hsame.1]
          simp
    · rename_i hresolution
      rw [List.append_nil]
      refine h.undispatched rfl rfl hclaim fun hpending => ?_
      cases hr : input.resolution with
      | notApplied => exact absurd hr hresolution
      | applied => simp [ActionRecord.receiving, ActionReconcileInput.status, hr] at hpending
      | unknown => simp [ActionRecord.receiving, ActionReconcileInput.status, hr] at hpending

end Trail

/-! ## Changes -/

/-- The events of a change about the action of a key. -/
def changeEvents (key : ActionKey) : LedgerChange → List DeliveryEvent
  | .move _ (.claim _) moved | .move _ (.reclaim _) moved =>
    if moved.key = key then [.dispatched moved] else []
  | .move record (.reconcile input) _ =>
    if record.key = key ∧ input.resolution = .notApplied then [.unapplied input] else []
  | _ => []

/-- A move of the record keeps its trail, with the events of the move. -/
theorem Trail.move {r moved : ActionRecord} {events : List DeliveryEvent} {move : ActionMove}
    (h : Trail (some r) events) (hmoves : Moves r move moved) :
    Trail (some moved) (events ++ changeEvents r.key (.move r move moved)) := by
  have hnothing : ∀ {record : ActionRecord}, Trail (some record) events →
      Trail (some record) (events ++ []) := fun h => by rwa [List.append_nil]
  cases hmoves with
  | @claim request valid pending =>
    have hkey : (r.claimedBy request).key = r.key := rfl
    simp only [changeEvents, hkey, if_true]
    exact h.dispatched (Or.inl pending)
  | @reclaim request valid claimed safe due =>
    have hkey : (r.claimedBy request).key = r.key := rfl
    simp only [changeEvents, hkey, if_true]
    exact h.dispatched (Or.inr safe)
  | @reconcile input valid unsettled holds open_ =>
    unfold changeEvents
    simp only [true_and]
    exact h.reconciled (Moves.reconcile valid unsettled holds open_)
  | @receipt input valid unsettled holds unanswered =>
    refine hnothing (h.undispatched rfl rfl (fun claim hc => ?_) (fun hpending => ?_))
    · simp only [ActionRecord.receiving] at hc
      split at hc
      · exact hc
      · cases hc
    · cases ho : input.outcome <;>
        simp [ActionRecord.receiving, ReceiptOutcome.status, ho] at hpending
  | expire valid claimed due =>
    exact hnothing (h.undispatched rfl rfl (fun _ hc => hc) (fun hc => by cases hc))
  | retire valid pending unapplied =>
    exact hnothing (h.undispatched rfl rfl (fun _ hc => hc) (fun hc => by cases hc))
  | settle valid fingerprint unsettled projected source =>
    exact hnothing (h.undispatched rfl rfl (fun _ hc => hc) (fun hc => hc))

variable {key : ActionKey} {l l' : Ledger}

/-- A change of another action says nothing about this one. -/
theorem changeEvents_of_ne {r moved : ActionRecord} {move : ActionMove}
    (hmoves : Moves r move moved) (hne : r.key ≠ key) :
    changeEvents key (.move r move moved) = [] := by
  have hmoved : moved.key ≠ key := hmoves.key ▸ hne
  cases move <;> simp [changeEvents, hne, hmoved]

/-- Every change keeps the trail of an action that is not purged. -/
theorem Trail.step {events : List DeliveryEvent} {change : LedgerChange}
    (h : Trail (l.record key) events) (hstep : l.Step change l')
    (hkept : ∀ record, change = .purge record → record.key ≠ key) :
    Trail (l'.record key) (events ++ changeEvents key change) := by
  have hother : ∀ (other : ActionKey) (record : Option ActionRecord), other ≠ key →
      l.write other record key = l.record key := by
    intro other record hne
    unfold Ledger.write
    rw [if_neg (Ne.symm hne)]
  cases hstep with
  | @admission record fresh pending attempt unclaimed =>
    show Trail (l.write record.key (some record) key) (events ++ [])
    rw [List.append_nil]
    by_cases hkey : record.key = key
    · subst hkey
      rw [fresh] at h
      unfold Ledger.write
      rw [if_pos rfl]
      exact h.admission attempt unclaimed
    · rw [hother _ _ hkey]
      exact h
  | @move record moved move owner present moves owners =>
    show Trail (l.write record.key (some moved) key) _
    by_cases hkey : record.key = key
    · subst hkey
      rw [present] at h
      unfold Ledger.write
      rw [if_pos rfl]
      exact h.move moves
    · rw [hother _ _ hkey, changeEvents_of_ne moves hkey, List.append_nil]
      exact h
  | @purge record owner present terminal owners =>
    show Trail (l.write record.key none key) (events ++ [])
    rw [List.append_nil, hother _ _ (hkept record rfl)]
    exact h

theorem Trail.path {events : List DeliveryEvent} {changes : List LedgerChange}
    (h : Trail (l.record key) events) (hpath : Ledger.Path l changes l')
    (hkept : ∀ record, .purge record ∈ changes → record.key ≠ key) :
    Trail (l'.record key) (events ++ changes.flatMap (changeEvents key)) := by
  induction hpath generalizing events with
  | nil => simpa using h
  | @cons l mid l' change changes step rest ih =>
    have hmid := h.step step fun record hc => hkept record (hc ▸ List.mem_cons_self ..)
    have hend := ih hmid fun record hmem => hkept record (List.mem_cons_of_mem _ hmem)
    rw [List.flatMap_cons, ← List.append_assoc]
    exact hend

/-! ## Calls -/

theorem changeEvents_sweep {now : String} {changes : List LedgerChange}
    (h : ∀ change ∈ changes, change.IsSweep now) : changes.flatMap (changeEvents key) = [] := by
  rw [List.flatMap_eq_nil_iff]
  intro change hmem
  have hsweep := h change hmem
  cases change with
  | move record move moved =>
    cases move <;> first | rfl | cases hsweep
  | admission record => rfl
  | purge record => rfl

theorem changeEvents_dispatch {request : ActionClaimRequest} {moved : ActionRecord}
    {dispatch : LedgerChange} (h : dispatch.IsDispatch request moved) :
    changeEvents key dispatch = if moved.key = key then [.dispatched moved] else [] := by
  cases dispatch with
  | admission record => cases h
  | purge record => cases h
  | move record move result =>
    cases move with
    | claim other =>
      obtain ⟨-, rfl⟩ := h
      rfl
    | reclaim other =>
      obtain ⟨-, rfl⟩ := h
      rfl
    | _ => cases h

/-- The events of a call are those of its changes, but for a reconciliation that was
answered before. -/
theorem deliveryEvents_eq {operation : ActionOperation}
    {answer : Except ActionError ActionAnswer} {changes : List LedgerChange}
    (h : Fits operation answer.toOption changes) :
    deliveryEvents key (operation, answer) = changes.flatMap (changeEvents key) ∨
      ∃ input, deliveryEvents key (operation, answer) = [.unapplied input] ∧
        changes.flatMap (changeEvents key) = [] := by
  cases operation with
  | ensure intent now =>
    left
    rcases h with rfl | rfl <;> rfl
  | get stream operationId => exact Or.inl (by rw [show changes = [] from h]; rfl)
  | recoverDelivery stream => exact Or.inl (by rw [show changes = [] from h]; rfl)
  | listGoalProjections request => exact Or.inl (by rw [show changes = [] from h]; rfl)
  | recordReceipt input =>
    left
    rcases h with rfl | ⟨record, moved, -, rfl⟩ <;> rfl
  | settleGoalProjection input =>
    left
    rcases h with rfl | ⟨record, moved, rfl⟩ <;> rfl
  | purgeTerminal request =>
    left
    have hnone : changes.flatMap (changeEvents key) = [] := by
      simp only [Fits] at h
      split at h
      · obtain ⟨records, rfl, -⟩ := h
        rw [List.flatMap_eq_nil_iff]
        intro change hmem
        obtain ⟨record, -, rfl⟩ := List.mem_map.1 hmem
        rfl
      · rw [h]
        rfl
    rw [hnone]
    rfl
  | nextDelivery request =>
    left
    simp only [Fits] at h
    split at h
    · rename_i moved changed hanswer
      obtain ⟨sweep, dispatch, rfl, hsweep, hdispatch⟩ := h
      have hevents : deliveryEvents key (.nextDelivery request, answer) =
          if moved.key = key then [.dispatched moved] else [] := by
        cases answer with
        | error e => cases hanswer
        | ok a =>
          cases hanswer
          rfl
      rw [hevents, List.flatMap_append, changeEvents_sweep hsweep, List.nil_append,
        List.flatMap_singleton, changeEvents_dispatch hdispatch]
    · rename_i hnone
      rw [changeEvents_sweep h]
      cases answer with
      | error e => rfl
      | ok a =>
        unfold deliveryEvents
        split
        · rename_i heq
          cases heq
          exact absurd rfl (hnone _ _)
        · rename_i heq
          cases heq
        · rfl
  | reconcile input =>
    cases answer with
    | error e =>
      left
      rw [show changes = [] from h]
      rfl
    | ok a =>
      obtain ⟨before, after, rfl, hbefore, hafter⟩ := h
      have hretired : after.flatMap (changeEvents key) = [] := by
        rcases hafter with rfl | ⟨between, moved, rfl⟩ <;> rfl
      rw [List.flatMap_append, hretired, List.append_nil]
      rcases hbefore with rfl | ⟨record, between, hkey, rfl⟩
      · by_cases hnoted : input.key = key ∧ input.resolution = .notApplied
        · exact Or.inr ⟨input, if_pos hnoted, rfl⟩
        · exact Or.inl (if_neg hnoted)
      · left
        rw [List.flatMap_singleton]
        show (if input.key = key ∧ input.resolution = .notApplied then _ else _) =
          if record.key = key ∧ input.resolution = .notApplied then _ else _
        rw [hkey]

/-- The action of a key is not among those a call purged. -/
def Spares (key : ActionKey) (outcome : ActionJournal.Outcome) : Prop :=
  ∀ request operationIds, outcome = (.purgeTerminal request, .ok (.purged operationIds)) →
    key.operationId ∉ operationIds

theorem Fits.spares {operation : ActionOperation} {answer : Except ActionError ActionAnswer}
    {changes : List LedgerChange} (h : Fits operation answer.toOption changes)
    (hspares : Spares key (operation, answer)) :
    ∀ record, .purge record ∈ changes → record.key ≠ key := by
  rintro record hmem rfl
  obtain ⟨request, operationIds, rfl, hanswer, hpurged⟩ := h.purge hmem
  cases answer with
  | error e => cases hanswer
  | ok a =>
    cases hanswer
    exact hspares request operationIds rfl hpurged

/-- Every run keeps the trail of an action that it does not purge. -/
theorem Ledger.Run.trail {outcomes : List ActionJournal.Outcome} (hrun : Ledger.Run l outcomes l')
    (h : l.record key = none) (hspares : ∀ outcome ∈ outcomes, Spares key outcome) :
    Trail (l'.record key) (outcomes.flatMap (deliveryEvents key)) := by
  induction hrun with
  | nil =>
    rw [h]
    exact .nil
  | @concat outcomes mid l' operation answer changes before path fits ih =>
    have hmid := ih fun outcome hmem => hspares outcome (List.mem_append_left _ hmem)
    have hkept := fits.spares
      (hspares _ (List.mem_append_right _ (List.mem_singleton_self _)))
    rw [List.flatMap_append, List.flatMap_singleton]
    rcases deliveryEvents_eq fits with hevents | ⟨input, hevents, hnone⟩
    · rw [hevents]
      exact hmid.path path hkept
    · have hend := hmid.path path hkept
      rw [hnone, List.append_nil] at hend
      rw [hevents]
      exact hend.unapplied input

/-! ## What a record keeps -/

/-- A record goes on as another one: what was asked for stays, attempts are not taken back, a goal
projection is settled once, and an end is final. -/
structure ContinuesAs (record later : ActionRecord) : Prop where
  intent : later.toPreparedActionIntent = record.toPreparedActionIntent
  createdAt : later.createdAt = record.createdAt
  attempt : record.attempt ≤ later.attempt
  settlement : record.goalProjectionSettlement.isSome →
    later.goalProjectionSettlement = record.goalProjectionSettlement
  terminal : record.status.terminal = true → later.status = record.status ∧
    later.claim = record.claim ∧ later.receipt = record.receipt

theorem ContinuesAs.refl (record : ActionRecord) : ContinuesAs record record :=
  ⟨rfl, rfl, le_rfl, fun _ => rfl, fun _ => ⟨rfl, rfl, rfl⟩⟩

theorem ContinuesAs.trans {r s t : ActionRecord} (h : ContinuesAs r s) (h' : ContinuesAs s t) :
    ContinuesAs r t := by
  refine ⟨h'.intent.trans h.intent, h'.createdAt.trans h.createdAt, h.attempt.trans h'.attempt,
    fun hsome => ?_, fun hend => ?_⟩
  · have hsame := h.settlement hsome
    rw [← hsame]
    exact h'.settlement (hsame ▸ hsome)
  · obtain ⟨hstatus, hclaim, hreceipt⟩ := h.terminal hend
    obtain ⟨hstatus', hclaim', hreceipt'⟩ := h'.terminal (hstatus ▸ hend)
    exact ⟨hstatus'.trans hstatus, hclaim'.trans hclaim, hreceipt'.trans hreceipt⟩

/-- Only a settlement moves a terminal record, and only once. -/
theorem Moves.continues {r moved : ActionRecord} {move : ActionMove} (hmoves : Moves r move moved) :
    ContinuesAs r moved := by
  cases hmoves with
  | claim valid pending =>
    exact ⟨rfl, rfl, Nat.le_succ _, fun _ => rfl, fun h => nomatch pending ▸ h⟩
  | reclaim valid claimed safe due =>
    exact ⟨rfl, rfl, Nat.le_succ _, fun _ => rfl, fun h => nomatch claimed ▸ h⟩
  | receipt valid unsettled | reconcile valid unsettled =>
    refine ⟨rfl, rfl, le_rfl, fun _ => rfl, fun h => ?_⟩
    rcases unsettled_iff.1 unsettled with hs | hs <;> (rw [hs] at h; cases h)
  | expire valid claimed due =>
    exact ⟨rfl, rfl, le_rfl, fun _ => rfl, fun h => nomatch claimed ▸ h⟩
  | retire valid pending unapplied =>
    exact ⟨rfl, rfl, le_rfl, fun _ => rfl, fun h => nomatch pending ▸ h⟩
  | settle valid fingerprint unsettled projected source =>
    exact ⟨rfl, rfl, le_rfl, fun h => (nomatch unsettled ▸ h), fun _ => ⟨rfl, rfl, rfl⟩⟩

/-- The ledger has the action of a record, as it is by now. -/
def Ledger.Carries (l : Ledger) (key : ActionKey) (record : ActionRecord) : Prop :=
  ∃ later, l.record key = some later ∧ ContinuesAs record later

theorem Ledger.Carries.step {record : ActionRecord} {change : LedgerChange}
    (h : l.Carries key record) (hstep : l.Step change l')
    (hkept : ∀ purged, change = .purge purged → purged.key ≠ key) : l'.Carries key record := by
  obtain ⟨later, hlater, hcontinues⟩ := h
  cases hstep with
  | @admission admitted fresh pending attempt unclaimed =>
    have hkey : key ≠ admitted.key := by
      rintro rfl
      rw [fresh] at hlater
      cases hlater
    exact ⟨later, (if_neg hkey).trans hlater, hcontinues⟩
  | @move before moved move owner present moves owners =>
    by_cases hkey : key = before.key
    · rw [hkey, present] at hlater
      cases hlater
      exact ⟨moved, if_pos hkey, hcontinues.trans moves.continues⟩
    · exact ⟨later, (if_neg hkey).trans hlater, hcontinues⟩
  | @purge purged owner present terminal owners =>
    exact ⟨later, (if_neg (Ne.symm (hkept purged rfl))).trans hlater, hcontinues⟩

theorem Ledger.Run.carries {record : ActionRecord} {outcomes : List ActionJournal.Outcome}
    (hrun : Ledger.Run l outcomes l') (h : l.Carries key record)
    (hspares : ∀ outcome ∈ outcomes, Spares key outcome) : l'.Carries key record := by
  induction hrun with
  | nil => exact h
  | @concat outcomes mid l' operation answer changes before path fits ih =>
    have hmid := ih fun outcome hmem => hspares outcome (List.mem_append_left _ hmem)
    have hkept := fits.spares (hspares _ (List.mem_append_right _ (List.mem_singleton_self _)))
    have hstep : ∀ l change l', change ∈ changes → Ledger.Carries l key record →
        Ledger.Step l change l' → Ledger.Carries l' key record := by
      intro l change l' hmem hcarries hstep
      exact hcarries.step hstep fun purged hpurge => hkept purged (hpurge ▸ hmem)
    exact path.invariant hstep hmid

/-- The ledger has the action with this status. -/
def Ledger.HasStatus (l : Ledger) (key : ActionKey) (status : ActionStatus) : Prop :=
  ∃ record, l.record key = some record ∧ record.status = status

/-- A succeeded or failed status is never left. -/
theorem Ledger.Run.terminal {status : ActionStatus} {outcomes : List ActionJournal.Outcome}
    (hrun : Ledger.Run l outcomes l') (h : l.HasStatus key status)
    (hterminal : status.terminal = true) (hspares : ∀ outcome ∈ outcomes, Spares key outcome) :
    l'.HasStatus key status := by
  obtain ⟨record, hrecord, rfl⟩ := h
  obtain ⟨later, hlater, hcontinues⟩ := hrun.carries ⟨record, hrecord, .refl record⟩ hspares
  exact ⟨later, hlater, (hcontinues.terminal hterminal).1⟩

end OpenGameAgent
