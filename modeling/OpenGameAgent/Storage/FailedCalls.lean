import OpenGameAgent.Actions.FailedCalls
import OpenGameAgent.Storage.ActionJournals

/-!
# What a failed call leaves behind

A call on the SQLite journal that throws leaves the database as it was: each method is
one transaction.  The in-memory journal keeps what `nextDelivery` wrote before it threw.

* `failed_call_changes_nothing` — in every state of a run, the in-memory journal takes a
  failed call back unless the call is a delivery that fails late.
-/

namespace OpenGameAgent

variable {ctx : ActionContext}

/-- If the call throws, it leaves the journal as it was. -/
def ActionJournal.FailsClean (journal : ActionJournal) (state : journal.State)
    (call : ActionCall journal.Authority) : Prop :=
  ∀ e, (journal.answer state call).1 = .error e → (journal.answer state call).2 = state

/-- The call is a delivery that throws when it has written a record before. -/
def ActionCall.FailsLate (ctx : ActionContext) (journal : InMemoryActionJournal)
    (call : ActionCall RunAuthorityCheck) : Prop :=
  ∃ request, call.operation = .nextDelivery request ∧
    InMemoryActionJournal.FailsLate ctx call.authority journal request

namespace InMemoryActionJournal

variable {authority : RunAuthorityCheck} {operation : ActionOperation}
  {journal : InMemoryActionJournal}

/-- Every method but `nextDelivery` writes behind its last check. -/
theorem ends_call_other (h : ∀ request, operation ≠ .nextDelivery request) :
    Ends (call ctx authority operation) journal (fun _ _ => True)
      (fun _ after => after = journal) := by
  cases operation with
  | ensure intent now =>
    rw [call, ends_map]
    exact (ensure_path intent now journal).mono (fun _ _ _ => trivial) fun _ _ h => h
  | get stream operationId =>
    simp [call, find, ends_attempt]
  | recoverDelivery stream =>
    simp [call, recoverDelivery, ends_attempt]
  | nextDelivery request => exact absurd rfl (h request)
  | recordReceipt input =>
    rw [call, ends_map]
    exact (recordReceipt_path input journal).mono (fun _ _ _ => trivial) fun _ _ h => h
  | reconcile input =>
    rw [call, ends_map]
    exact (reconcile_path input journal).mono (fun _ _ _ => trivial) fun _ _ h => h
  | listGoalProjections request =>
    simp [call, listGoalProjections, ends_attempt]
  | settleGoalProjection input =>
    rw [call, ends_map]
    exact (settleGoalProjection_path input journal).mono (fun _ _ _ => trivial) fun _ _ h => h
  | purgeTerminal request =>
    simp [call, purgeTerminal, ends_attempt]

end InMemoryActionJournal

/-- One call, from any state of the in-memory journal. -/
theorem failsClean_iff (journal : InMemoryActionJournal) (call : ActionCall RunAuthorityCheck) :
    (inMemoryJournal ctx).FailsClean journal call ↔ ¬ call.FailsLate ctx journal := by
  by_cases hdelivery : ∃ request, call.operation = .nextDelivery request
  · obtain ⟨request, hrequest⟩ := hdelivery
    have hends : Ends (InMemoryActionJournal.call ctx call.authority call.operation) journal
        (fun _ _ => ¬ InMemoryActionJournal.FailsLate ctx call.authority journal request)
        (fun _ after => after ≠ journal ↔
          InMemoryActionJournal.FailsLate ctx call.authority journal request) := by
      rw [hrequest, InMemoryActionJournal.call, ends_map]
      exact InMemoryActionJournal.ends_nextDelivery request journal
    obtain ⟨hok, herror⟩ := hends.respond
    have hlate : call.FailsLate ctx journal ↔
        InMemoryActionJournal.FailsLate ctx call.authority journal request := by
      constructor
      · rintro ⟨other, hother, h⟩
        obtain rfl := ActionOperation.nextDelivery.inj (hrequest.symm.trans hother)
        exact h
      · intro h
        exact ⟨request, hrequest, h⟩
    rw [hlate]
    constructor
    · intro hclean hfails
      cases hanswer : (respond (InMemoryActionJournal.call ctx call.authority call.operation)
          journal).1 with
      | ok answer => exact hok answer hanswer hfails
      | error e => exact (herror e hanswer).2 hfails (hclean e hanswer)
    · intro hnever e he
      by_contra hne
      exact hnever ((herror e he).1 hne)
  · rw [not_exists] at hdelivery
    refine iff_of_true (fun e he => ?_) ?_
    · exact (InMemoryActionJournal.ends_call_other hdelivery).respond.2 e he
    · rintro ⟨request, hrequest, -⟩
      exact hdelivery request hrequest

/-- In every state that calls on an in-memory journal lead to, a call that throws changes
nothing, unless it is a delivery that throws behind a write. -/
theorem failed_call_changes_nothing (ctx : ActionContext)
    (calls : List (ActionCall RunAuthorityCheck)) (call : ActionCall RunAuthorityCheck) :
    (inMemoryJournal ctx).FailsClean ((inMemoryJournal ctx).run calls) call ↔
      ¬ call.FailsLate ctx ((inMemoryJournal ctx).run calls) :=
  failsClean_iff _ call

/-! The first of two pending actions is retired, the authority of the second cannot be read. -/

/-- SHA-256 on the texts of the two actions, told apart by their length. -/
def twoRunsDigest (units : List UInt16) : String :=
  match units.length with
  | 127 => "1b58b50491ca64090252fd626162ed421cf86d901bdc99820241882ff9893b67"
  | 263 => "ac7943edcbb2e861d1598ae93ad078fd605061c84ee5e681a05ff7291f696a35"
  | 128 => "6f9f323107dbd2adcdc7cdeddd0feac7e168c5fe962c145c290d696612111d23"
  | 264 => "adb93f13ad3d89115f8222c9e73d050c148344e565c252182da35aa65c6bfa7b"
  | _ => "74234e98afe7498fb5daf1f36ac2d78acc339464f950703b8c019892f982b90b"

/-- The action of the first intent's actor in another run. -/
def otherRunIntent : PreparedActionIntent where
  toActionIntentDraft :=
    { sampleDraft "a" .recoverable with
      coordinate := ⟨"s", "a", "rr", 0⟩ }
  operationId := "act_6f9f323107dbd2adcdc7cdeddd0feac7e168c5fe962c145c290d696612111d23"
  intentFingerprint := "adb93f13ad3d89115f8222c9e73d050c148344e565c252182da35aa65c6bfa7b"
  payloadFingerprint := "74234e98afe7498fb5daf1f36ac2d78acc339464f950703b8c019892f982b90b"

/-- Two actions are admitted while their runs are open. -/
def twoRunsCalls : List (ActionCall RunAuthorityCheck) :=
  [.ensure firstIntent (sampleTime "0"), .ensure otherRunIntent (sampleTime "0")].map
    (ActionCall.mk fun _ => .ok ())

/-- The first run is closed, and the check of the second throws another error. -/
def brokenAuthority : RunAuthorityCheck := fun coordinate =>
  if coordinate.runId = "r" then .error .runAuthorityClosed
  else .error (.type "Action run authority checks must complete synchronously.")

def brokenDelivery : ActionCall RunAuthorityCheck :=
  ⟨brokenAuthority, .nextDelivery (sampleClaim "a" "x" "1" "5")⟩

/-- A call that throws and changes the status of a record does not fail clean. -/
theorem not_failsClean {state : InMemoryActionJournal} {call : ActionCall RunAuthorityCheck}
    {key : ActionKey}
    (h : ((inMemoryJournal ctx).answer state call).1.isOk = false ∧
      (((inMemoryJournal ctx).answer state call).2.records.get? key).map ActionRecord.status ≠
        (state.records.get? key).map ActionRecord.status) :
    ¬ (inMemoryJournal ctx).FailsClean state call := by
  intro hclean
  rcases hanswer : ((inMemoryJournal ctx).answer state call).1 with e | answer
  · exact h.2 (by rw [hclean e hanswer])
  · rw [hanswer] at h
    cases h.1

theorem failed_delivery_retires : ¬ ∀ (ctx : ActionContext)
    (calls : List (ActionCall RunAuthorityCheck)) (call : ActionCall RunAuthorityCheck),
    (inMemoryJournal ctx).FailsClean ((inMemoryJournal ctx).run calls) call := by
  intro h
  have hbroken : ¬ (inMemoryJournal ⟨twoRunsDigest, none⟩).FailsClean
      ((inMemoryJournal ⟨twoRunsDigest, none⟩).run twoRunsCalls) brokenDelivery :=
    @not_failsClean _ _ _ firstIntent.key (by decide +kernel)
  exact hbroken (h ⟨twoRunsDigest, none⟩ twoRunsCalls brokenDelivery)

end OpenGameAgent
