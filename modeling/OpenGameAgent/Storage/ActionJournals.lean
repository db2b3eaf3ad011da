import OpenGameAgent.Actions.Fencing
import OpenGameAgent.Actions.InMemoryLedger
import OpenGameAgent.Storage.SqliteActionLedger

/-!
# The two Action journals

`actionJournal` is the in-memory and the SQLite journal as implementations of
`ActionJournal`, and what follows for the runs of both.

* `conflict_keys_exclusive` — a conflict key is held exactly by the claimed or uncertain
  action that lists it, in every state that calls lead to.
* `delivery_fenced` — attempts, claims and policies over any run.
-/

namespace OpenGameAgent

/-- The implementations of `ActionJournal`. -/
inductive JournalKind where
  | inMemory | sqlite

def inMemoryJournal (ctx : ActionContext) : ActionJournal where
  State := InMemoryActionJournal
  Authority := RunAuthorityCheck
  empty := .empty
  call authority operation := InMemoryActionJournal.call ctx authority operation
  ledger := InMemoryActionJournal.ledger
  starts := rfl
  refines _ operation journal := InMemoryActionJournal.call_path operation journal
  fenced _ operation journal hstale := InMemoryActionJournal.call_stale operation journal hstale

def sqliteJournal (ctx : ActionContext) : ActionJournal where
  State := SqliteActionDatabase
  Authority := SqliteRunAuthority
  empty := .empty
  call tables operation := SqliteActionDatabase.call ctx tables operation
  ledger := SqliteActionDatabase.ledger
  starts := rfl
  refines _ operation database :=
    (SqliteActionDatabase.call_path operation database).mono (fun _ _ h => h) fun _ _ h =>
      ⟨[], h ▸ .nil _, fits_nil operation⟩
  fenced _ operation database hstale := SqliteActionDatabase.call_stale operation database hstale

def actionJournal (kind : JournalKind) (ctx : ActionContext) : ActionJournal :=
  match kind with
  | .inMemory => inMemoryJournal ctx
  | .sqlite => sqliteJournal ctx

/-- The intents that some calls ensure. -/
def Ensured {Authority : Type} (calls : List (ActionCall Authority))
    (intent : PreparedActionIntent) : Prop :=
  ∃ call ∈ calls, ∃ now, call.operation = .ensure intent now

section Runs

variable (journal : ActionJournal)

theorem ActionJournal.run_ledger (calls : List (ActionCall journal.Authority)) :
    Ledger.Run ⟨fun _ => none, fun _ => none⟩ (journal.outcomes calls)
      (journal.ledger (journal.run calls)) := by
  rw [← journal.starts]
  exact journal.ledger_run journal.empty calls

theorem ActionJournal.ensured_of_outcomes {calls : List (ActionCall journal.Authority)}
    {intent : PreparedActionIntent} {now : String} {answer : Except ActionError ActionAnswer}
    (h : (.ensure intent now, answer) ∈ journal.outcomes calls) : Ensured calls intent := by
  obtain ⟨entry, hmem, heq⟩ := List.mem_map.1 h
  have hcall : entry.1 ∈ calls := by
    rw [← map_fst_history journal.answer journal.empty calls]
    exact List.mem_map_of_mem hmem
  exact ⟨entry.1, hcall, now, (Prod.mk.inj heq).1⟩

end Runs

/-- Conflict keys are mutually exclusive, after any calls on either journal. -/
theorem conflict_keys_exclusive (kind : JournalKind) (ctx : ActionContext)
    (calls : List (ActionCall (actionJournal kind ctx).Authority))
    (hfree : CollisionFree (Ensured calls)) :
    ((actionJournal kind ctx).ledger ((actionJournal kind ctx).run calls)).Exclusive := by
  have hrun := (actionJournal kind ctx).run_ledger calls
  have hstart : Ledger.Sound (Ensured calls) ⟨fun _ => none, fun _ => none⟩ := by
    constructor
    case keyed => intro key record h; cases h
    case admitted => intro key record h; cases h
    case exclusive =>
      intro key operationId
      constructor
      · intro h
        cases h
      · rintro ⟨k, record, h, -⟩
        cases h
  have hsound := hrun.sound hfree hstart fun intent now answer hmem =>
    (actionJournal kind ctx).ensured_of_outcomes hmem
  exact hsound.exclusive_keys hfree

/-! Two actions of one session that want the same key. -/

/-- SHA-256 on the texts that the two sample intents hash, told apart by their length. -/
def sampleDigest (units : List UInt16) : String :=
  match units.length with
  | 127 => "1b58b50491ca64090252fd626162ed421cf86d901bdc99820241882ff9893b67"
  | 263 => "ac7943edcbb2e861d1598ae93ad078fd605061c84ee5e681a05ff7291f696a35"
  | 128 => "82d4042c12321b8bf9d7b1881b866072e89533389652568c19c51e8bc2f7cf70"
  | 257 => "b2ebb88a7af60f781b700387af3bf8f409c8c45537c4b2dadd19df46e0a8a544"
  | _ => "74234e98afe7498fb5daf1f36ac2d78acc339464f950703b8c019892f982b90b"

def sampleContext : ActionContext := ⟨sampleDigest, none⟩

/-- A draft without payload that wants the key `k`. -/
def sampleDraft (actorId : String) (replayPolicy : ActionReplayPolicy) : ActionIntentDraft where
  sessionId := "s"
  actorId := actorId
  coordinate := ⟨"s", actorId, "r", 0⟩
  actionName := "n"
  operationKey := "o"
  payload := .null
  expectedAuthority := ⟨"t", 0, 0⟩
  conflictKeys := ["k"]
  replayPolicy := replayPolicy
  goalProjection := none

def firstIntent : PreparedActionIntent where
  toActionIntentDraft := sampleDraft "a" .recoverable
  operationId := "act_1b58b50491ca64090252fd626162ed421cf86d901bdc99820241882ff9893b67"
  intentFingerprint := "ac7943edcbb2e861d1598ae93ad078fd605061c84ee5e681a05ff7291f696a35"
  payloadFingerprint := "74234e98afe7498fb5daf1f36ac2d78acc339464f950703b8c019892f982b90b"

def secondIntent : PreparedActionIntent where
  toActionIntentDraft := sampleDraft "bb" .safe
  operationId := "act_82d4042c12321b8bf9d7b1881b866072e89533389652568c19c51e8bc2f7cf70"
  intentFingerprint := "b2ebb88a7af60f781b700387af3bf8f409c8c45537c4b2dadd19df46e0a8a544"
  payloadFingerprint := "74234e98afe7498fb5daf1f36ac2d78acc339464f950703b8c019892f982b90b"

/-- A timestamp of the sample runs, by its second. -/
def sampleTime (second : String) : String := "2026-01-01T00:00:0" ++ second ++ ".000Z"

def sampleClaim (actorId claimToken claimedAt expiresAt : String) : ActionClaimRequest where
  sessionId := "s"
  actorId := actorId
  runId := none
  claimantId := "c"
  claimToken := claimToken
  claimedAt := sampleTime claimedAt
  expiresAt := sampleTime expiresAt
  candidateLimit := 2

/-- Both actors ensure their action and ask for it. -/
def contendedCalls : List (ActionCall RunAuthorityCheck) :=
  [.ensure firstIntent (sampleTime "0"), .ensure secondIntent (sampleTime "0"),
    .nextDelivery (sampleClaim "a" "x" "1" "5"), .nextDelivery (sampleClaim "bb" "y" "2" "5")].map
      (ActionCall.mk fun _ => .ok ())

theorem collisionFree_contended : CollisionFree (Ensured contendedCalls) := by
  have hensured : ∀ intent, Ensured contendedCalls intent →
      intent = firstIntent ∨ intent = secondIntent := by
    rintro intent ⟨call, hmem, now, hcall⟩
    unfold contendedCalls at hmem
    obtain ⟨operation, hoperation, rfl⟩ := List.mem_map.1 hmem
    simp only [List.mem_cons, List.not_mem_nil, or_false] at hoperation
    rcases hoperation with rfl | rfl | rfl | rfl
    · cases hcall
      exact Or.inl rfl
    · cases hcall
      exact Or.inr rfl
    · cases hcall
    · cases hcall
  intro a b ha hb hid
  rcases hensured a ha with rfl | rfl <;> rcases hensured b hb with rfl | rfl
  · exact ⟨rfl, rfl⟩
  · exact absurd hid (by decide)
  · exact absurd hid (by decide)
  · exact ⟨rfl, rfl⟩

theorem conflict_keys_exclusive_contended :
    ((actionJournal .inMemory sampleContext).ledger
        ((actionJournal .inMemory sampleContext).run contendedCalls)).Exclusive ∧
      ((actionJournal .inMemory sampleContext).ledger
        ((actionJournal .inMemory sampleContext).run contendedCalls)).owner ("s", "k") =
          some firstIntent.operationId :=
  ⟨conflict_keys_exclusive .inMemory sampleContext contendedCalls collisionFree_contended,
    by decide +kernel⟩

/-! ## Delivery -/

/-- What a run did with the action of a key. -/
def ActionJournal.events (journal : ActionJournal) (calls : List (ActionCall journal.Authority))
    (key : ActionKey) : List DeliveryEvent :=
  (journal.outcomes calls).flatMap (deliveryEvents key)

/-- The delivery of an action over a run, and what may come after it, is fenced. -/
structure ActionJournal.Fenced (journal : ActionJournal)
    (calls : List (ActionCall journal.Authority)) (key : ActionKey) : Prop where
  /-- Attempts strictly increase from one dispatch to a later one, and the first of the two
  may be followed by another under its policy: not at all for `never`, and for
  `recoverable` after a reconciliation of that attempt that answered not-applied. -/
  ordered : ∀ before between after a b,
    journal.events calls key = before ++ .dispatched a :: (between ++ .dispatched b :: after) →
    a.attempt < b.attempt ∧ a.MayRedispatch between
  /-- A dispatch is made under a claim of its attempt. -/
  claimed : ∀ action, .dispatched action ∈ journal.events calls key →
    ∃ claim, action.claim = some claim ∧ claim.attempt = action.attempt
  /-- An attempt is dispatched once. -/
  single : ∀ a b, .dispatched a ∈ journal.events calls key →
    .dispatched b ∈ journal.events calls key → a.attempt = b.attempt → a = b
  /-- The claim a record holds is the one its attempt was dispatched under. -/
  current : ∀ record claim, (journal.ledger (journal.run calls)).record key = some record →
    record.claim = some claim → ∃ action,
      .dispatched action ∈ journal.events calls key ∧ action.claim = some claim ∧
        action.attempt = record.attempt
  /-- A receipt or a reconciliation that answers neither the current claim nor, without a
  claim, repeats the recorded receipt changes nothing. -/
  stale : ∀ call, (journal.ledger (journal.run calls)).Stale call.operation →
    (journal.answer (journal.run calls) call).2 = journal.run calls
  /-- A succeeded or failed status is never left. -/
  settled : ∀ later status, (∀ outcome ∈ journal.outcomes (calls ++ later), Spares key outcome) →
    status.terminal = true →
    (journal.ledger (journal.run calls)).HasStatus key status →
    (journal.ledger (journal.run (calls ++ later))).HasStatus key status

/-- Two dispatches of one attempt are one. -/
theorem Trail.single {record : Option ActionRecord} {events : List DeliveryEvent}
    (h : Trail record events) {a b : ActionRecord} (ha : .dispatched a ∈ events)
    (hb : .dispatched b ∈ events) (hattempt : a.attempt = b.attempt) : a = b := by
  obtain ⟨before, after, rfl⟩ := List.append_of_mem ha
  rcases List.mem_append.1 hb with hb | hb
  · obtain ⟨front, between, rfl⟩ := List.append_of_mem hb
    have hlt := (h.ordered front between after b a (by simp)).1
    omega
  · rcases List.mem_cons.1 hb with hb | hb
    · cases hb
      rfl
    · obtain ⟨between, tail, rfl⟩ := List.append_of_mem hb
      have hlt := (h.ordered before between tail a b rfl).1
      omega

/-- What comes after some calls is a run from where they led. -/
theorem ActionJournal.run_append (journal : ActionJournal)
    (calls later : List (ActionCall journal.Authority)) :
    ∃ outcomes, journal.outcomes (calls ++ later) = journal.outcomes calls ++ outcomes ∧
      Ledger.Run (journal.ledger (journal.run calls)) outcomes
        (journal.ledger (journal.run (calls ++ later))) := by
  have hrun := journal.ledger_run (journal.run calls) later
  have hend : (history journal.answer (journal.run calls) later).2 =
      journal.run (calls ++ later) := by
    unfold ActionJournal.run
    rw [history_append]
  rw [hend] at hrun
  refine ⟨_, ?_, hrun⟩
  unfold ActionJournal.outcomes ActionJournal.run
  rw [history_append, List.map_append]

/-- Delivery is fenced over every run of either journal that does not purge the action. -/
theorem delivery_fenced (kind : JournalKind) (ctx : ActionContext)
    (calls : List (ActionCall (actionJournal kind ctx).Authority)) (key : ActionKey)
    (hspares : ∀ outcome ∈ (actionJournal kind ctx).outcomes calls, Spares key outcome) :
    (actionJournal kind ctx).Fenced calls key := by
  have htrail := ((actionJournal kind ctx).run_ledger calls).trail rfl hspares
  constructor
  case ordered => exact htrail.ordered
  case claimed => exact htrail.claimed
  case single => exact fun a b ha hb hattempt => htrail.single ha hb hattempt
  case current =>
    intro record claim hrecord hclaim
    have hpositive : record.attempt ≠ 0 := by
      intro hzero
      rw [htrail.unclaimed record hrecord hzero] at hclaim
      cases hclaim
    obtain ⟨last, after, ⟨⟨before, hevents⟩, -⟩, hattempt, hheld, -⟩ :=
      htrail.latest record hrecord hpositive
    refine ⟨last, ?_, hheld claim hclaim, hattempt⟩
    unfold ActionJournal.events
    rw [hevents]
    exact List.mem_append_right _ (List.mem_cons_self ..)
  case stale => exact fun call => (actionJournal kind ctx).answer_stale _ call
  case settled =>
    intro later status hlater hterminal hstatus
    obtain ⟨outcomes, heq, hrun⟩ := (actionJournal kind ctx).run_append calls later
    refine hrun.terminal hstatus hterminal fun outcome hmem => hlater outcome ?_
    rw [heq]
    exact List.mem_append_right _ hmem

/-- A run without purges spares every action. -/
theorem spares_of_no_purge (journal : ActionJournal)
    {calls : List (ActionCall journal.Authority)}
    (h : ∀ call ∈ calls, ∀ request, call.operation ≠ .purgeTerminal request) (key : ActionKey) :
    ∀ outcome ∈ journal.outcomes calls, Spares key outcome := by
  rintro outcome hmem request operationIds rfl
  obtain ⟨entry, hentry, heq⟩ := List.mem_map.1 hmem
  have hcall : entry.1 ∈ calls := by
    rw [← map_fst_history journal.answer journal.empty calls]
    exact List.mem_map_of_mem hentry
  exact absurd (Prod.mk.inj heq).1 (h entry.1 hcall request)

/-- A recoverable action is dispatched, found not applied, and dispatched again. -/
def redispatchedCalls : List (ActionCall RunAuthorityCheck) :=
  [.ensure firstIntent (sampleTime "0"), .nextDelivery (sampleClaim "a" "x" "1" "2"),
    .nextDelivery (sampleClaim "a" "y" "3" "9"),
    .reconcile
      { sessionId := "s", actorId := "a", operationId := firstIntent.operationId, claimToken := "x"
        attempt := 1, resolution := .notApplied, reconciledAt := sampleTime "4", result := none
        modelResult := none, authorityAfter := none },
    .nextDelivery (sampleClaim "a" "z" "5" "9")].map (ActionCall.mk fun _ => .ok ())

theorem delivery_fenced_redispatched :
    (actionJournal .inMemory sampleContext).Fenced redispatchedCalls firstIntent.key ∧
      ((actionJournal .inMemory sampleContext).events redispatchedCalls
        firstIntent.key).length = 3 := by
  refine ⟨delivery_fenced .inMemory sampleContext redispatchedCalls firstIntent.key
    (spares_of_no_purge _ ?_ _), by decide +kernel⟩
  intro call hmem request
  unfold redispatchedCalls at hmem
  obtain ⟨operation, hoperation, rfl⟩ := List.mem_map.1 hmem
  simp only [List.mem_cons, List.not_mem_nil, or_false] at hoperation
  rcases hoperation with rfl | rfl | rfl | rfl | rfl <;> exact nofun

/-- Over every run of either journal, an action that is there after some calls goes on after all
others that do not purge it. -/
theorem actions_continue (kind : JournalKind) (ctx : ActionContext)
    (before later : List (ActionCall (actionJournal kind ctx).Authority)) (key : ActionKey) :
    ∃ outcomes, (actionJournal kind ctx).outcomes (before ++ later) =
        (actionJournal kind ctx).outcomes before ++ outcomes ∧
      ((∀ outcome ∈ outcomes, Spares key outcome) → ∀ record,
        ((actionJournal kind ctx).ledger ((actionJournal kind ctx).run before)).record key =
            some record →
          ((actionJournal kind ctx).ledger
            ((actionJournal kind ctx).run (before ++ later))).Carries key record) := by
  obtain ⟨outcomes, heq, hrun⟩ := (actionJournal kind ctx).run_append before later
  refine ⟨outcomes, heq, fun hspares record hrecord => ?_⟩
  exact hrun.carries ⟨record, hrecord, .refl record⟩ hspares

end OpenGameAgent
